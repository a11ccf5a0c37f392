/-
This file proves what merging the members of a lineage leaves in a model.

Fields, roles and defaults are merged in three maps, but they are those of one table of
members: merging a member writes it into the table under its name. A name comes into the
table with the first block that declares it, and what stands there in the end comes from
the last one. So the fields of a model are ordered by their first appearance going down
the lineage, and each has everything, the absence of a default included, from the last
block that declares it.
-/

import Workflow.Proofs.Schema.Lineage

namespace Workflow

open Text Declaration

namespace Declaration

/-! ### One table instead of three maps -/

/-- Merged members are those of a table. -/
structure Merged.Holds {Entry : Type} (member : Entry → Member) (merged : Merged)
    (table : OrderedMap String Entry) : Prop where
  fields : merged.fields.entries =
    table.entries.map fun entry => (entry.1, (member entry.2).field)
  roles : merged.roles.entries = table.entries.map fun entry => (entry.1, (member entry.2).role)
  distinct : merged.defaults.keys.Nodup
  default? : ∀ name,
    merged.defaults.get? name = (table.get? name).bind fun entry => (member entry).start

section Holds

variable {Entry : Type} {member : Entry → Member} {merged : Merged}
  {table : OrderedMap String Entry}

theorem Merged.Holds.role? (holds : merged.Holds member table) (name : String) :
    merged.roles.get? name = (table.get? name).map fun entry => (member entry).role := by
  rw [OrderedMap.get?, OrderedMap.get?, holds.roles, List.find?_map, Option.map_map,
    Option.map_map]
  rfl

theorem Merged.holds_empty : Merged.Holds member {} {} :=
  ⟨rfl, rfl, List.nodup_nil, fun _ => rfl⟩

theorem Merged.defaults_add (merged : Merged) (member : Member) :
    (merged.add member).defaults =
      member.start.elim (merged.defaults.erase member.field.name)
        (merged.defaults.insert member.field.name) := by
  rw [add]
  cases member.start <;> rfl

theorem Merged.nodup_defaults_add (distinct : merged.defaults.keys.Nodup) (member : Member) :
    (merged.add member).defaults.keys.Nodup := by
  rw [Merged.defaults_add]
  cases member.start with
  | none => exact distinct.sublist (List.filter_sublist.map _)
  | some start => exact OrderedMap.nodup_keys_insert distinct _ start

/-- Merging a member writes its entry into the table. -/
theorem Merged.Holds.add (holds : merged.Holds member table) (entry : Entry) :
    (merged.add (member entry)).Holds member
      (table.insert (member entry).field.name entry) where
  fields := by
    show OrderedMap.insertEntry _ (member entry).field merged.fields.entries = _
    rw [holds.fields]
    exact (OrderedMap.map_insertEntry (fun entry => (member entry).field) _ entry
      table.entries).symm
  roles := by
    show OrderedMap.insertEntry _ (member entry).role merged.roles.entries = _
    rw [holds.roles]
    exact (OrderedMap.map_insertEntry (fun entry => (member entry).role) _ entry
      table.entries).symm
  distinct := Merged.nodup_defaults_add holds.distinct (member entry)
  default? name := by
    rw [Merged.defaults_add, OrderedMap.get?_insert]
    cases start : (member entry).start with
    | none =>
      rw [Option.elim_none, OrderedMap.get?_erase, holds.default?]
      split
      · exact start.symm
      · rfl
    | some value =>
      rw [Option.elim_some, OrderedMap.get?_insert, holds.default?]
      split
      · exact start.symm
      · rfl

theorem Merged.Holds.foldl (holds : merged.Holds member table) (own : List Entry) :
    ((own.map member).foldl Merged.add merged).Holds member
      (own.foldl (fun table entry => table.insert (member entry).field.name entry) table) := by
  induction own generalizing merged table with
  | nil => exact holds
  | cons entry rest inductionHypothesis => exact inductionHypothesis (holds.add entry)

end Holds

theorem mergeMembers_concat (blocks : List Block) (block : Block) :
    mergeMembers (blocks ++ [block]) =
      block.members.values.foldl Merged.add (mergeMembers blocks) := by
  rw [mergeMembers, List.flatMap_append, List.flatMap_singleton, List.foldl_append]
  rfl

/-! ### The table of a lineage -/

/-- Members written into a table one after the other. -/
def writeMembers (table : OrderedMap String Member) (members : List Member) :
    OrderedMap String Member :=
  members.foldl (fun table member => table.insert member.field.name member) table

/-- The members of blocks in one table. -/
def lineTable (line : List Block) : OrderedMap String Member :=
  writeMembers {} (line.flatMap fun block => block.members.values)

theorem holds_mergeMembers (line : List Block) : (mergeMembers line).Holds id (lineTable line) := by
  have start : Merged.Holds id {} {} := Merged.holds_empty
  have merged := start.foldl (line.flatMap fun block => block.members.values)
  rw [List.map_id] at merged
  exact merged

theorem lineTable_concat (line : List Block) (block : Block) :
    lineTable (line ++ [block]) = writeMembers (lineTable line) block.members.values := by
  rw [lineTable, lineTable, List.flatMap_append, List.flatMap_singleton, writeMembers,
    List.foldl_append]
  rfl

theorem eraseDups_concat (names : List String) (name : String) :
    (names ++ [name]).eraseDups =
      if name ∈ names then names.eraseDups else names.eraseDups ++ [name] := by
  rw [List.eraseDups_append]
  by_cases listed : name ∈ names <;> simp [List.removeAll, List.eraseDups_cons, listed]

/-- Names stand in a table in the order of their first appearance. -/
theorem keys_writeMembers (members : List Member) :
    (writeMembers {} members).keys =
      (members.map fun member => member.field.name).eraseDups := by
  induction members using List.reverseRecOn with
  | nil => rfl
  | append_singleton before member inductionHypothesis =>
    rw [writeMembers, List.foldl_append, List.foldl_cons, List.foldl_nil, OrderedMap.keys_insert,
      ← writeMembers, inductionHypothesis, List.map_append, List.map_singleton, eraseDups_concat]
    exact if_congr List.mem_eraseDups rfl rfl

theorem nodup_writeMembers (members : List Member) : (writeMembers {} members).keys.Nodup :=
  List.foldlRecOn (motive := fun table : OrderedMap String Member => table.keys.Nodup) _ _
    List.nodup_nil fun _ distinct _ _ => OrderedMap.nodup_keys_insert distinct _ _

theorem named_writeMembers (members : List Member) :
    ∀ entry ∈ (writeMembers {} members).entries, entry.2.field.name = entry.1 := by
  refine List.foldlRecOn (motive := fun table : OrderedMap String Member =>
    ∀ entry ∈ table.entries, entry.2.field.name = entry.1) _ _
    (fun _ member => absurd member List.not_mem_nil) fun table named member _ => ?_
  intro entry listed
  rcases OrderedMap.mem_entries_insert listed with rfl | old
  · rfl
  · exact named entry old

section Keyed

variable {block : Block} (keyed : block.Keyed)
include keyed

theorem Block.Keyed.map_name_values :
    (block.members.values.map fun member => member.field.name) = block.members.keys := by
  rw [OrderedMap.values, OrderedMap.keys, List.map_map]
  exact List.map_congr_left fun entry listed => keyed.named entry listed

/-- Writing the members of a block overrides what the table holds under their names. -/
theorem Block.Keyed.get?_writeMembers (table : OrderedMap String Member) (name : String) :
    (writeMembers table block.members.values).get? name =
      (block.members.get? name).or (table.get? name) := by
  obtain ⟨parent, derives, presentation, ⟨entries⟩⟩ := block
  obtain ⟨distinct, named⟩ := keyed
  change (entries.map (·.1)).Nodup at distinct
  change ∀ entry ∈ entries, entry.2.field.name = entry.1 at named
  show (writeMembers table (entries.map (·.2))).get? name =
    ((entries.find? fun entry => entry.1 = name).map (·.2)).or (table.get? name)
  induction entries generalizing table with
  | nil => rfl
  | cons entry rest inductionHypothesis =>
    obtain ⟨isName, others⟩ := List.forall_mem_cons.1 named
    obtain ⟨first, later⟩ := List.nodup_cons.1 distinct
    rw [List.map_cons, writeMembers, List.foldl_cons, ← writeMembers,
      inductionHypothesis _ later others, OrderedMap.get?_insert, isName, List.find?_cons]
    by_cases same : entry.1 = name
    · have unfound : (rest.find? fun entry => entry.1 = name) = none := by
        refine List.find?_eq_none.2 fun other listed isOther => first ?_
        exact List.mem_map.2 ⟨other, listed, (of_decide_eq_true isOther).trans same.symm⟩
      simp [same, unfound]
    · simp [same]

end Keyed

/-- The last block of a line that declares a name, with the member that it declares. -/
def LastDeclares (line : List Block) (name : String) (member : Member) : Prop :=
  ∃ before block after, line = before ++ block :: after ∧
    block.members.get? name = some member ∧ ∀ later ∈ after, name ∉ later.members.keys

section Keyed

variable {line : List Block} (keyed : ∀ block ∈ line, block.Keyed)
include keyed

theorem keys_lineTable :
    (lineTable line).keys = (line.flatMap fun block => block.members.keys).eraseDups := by
  rw [lineTable, keys_writeMembers, List.map_flatMap]
  refine congrArg List.eraseDups (List.flatMap_congr fun block listed => ?_)
  exact (keyed block listed).map_name_values

/-- What a table of a line holds is what the last blocks declare. -/
theorem lastDeclares_of_get? {name : String} {member : Member}
    (found : (lineTable line).get? name = some member) : LastDeclares line name member := by
  induction line using List.reverseRecOn with
  | nil => cases found
  | append_singleton before block inductionHypothesis =>
    obtain ⟨earlier, own⟩ := List.forall_mem_append.1 keyed
    have ownKeyed := own block List.mem_cons_self
    rw [lineTable_concat, ownKeyed.get?_writeMembers] at found
    cases declared : block.members.get? name with
    | some other =>
      rw [declared, Option.some_or] at found
      exact ⟨before, block, [], rfl, declared.trans found, fun _ member =>
        absurd member List.not_mem_nil⟩
    | none =>
      rw [declared, Option.none_or] at found
      obtain ⟨first, declaring, after, rfl, isMember, undeclared⟩ :=
        inductionHypothesis earlier found
      refine ⟨first, declaring, after ++ [block], List.append_assoc .., isMember,
        List.forall_mem_append.2 ⟨undeclared, ?_⟩⟩
      exact List.forall_mem_singleton.2 (OrderedMap.get?_eq_none_iff.1 declared)

end Keyed

end Declaration

/-! ### Models -/

/-- The blocks that a source declares. -/
def sourceBlocks (source : String) : OrderedMap String Block :=
  gatherBlocks (Bindings.ofLines (logicalLines source.toList)) (logicalLines source.toList)

/-- A model has its fields from a line of blocks: in the order in which their names first appear,
and each with what the last block that declares it says. -/
structure Model.Inherits (model : Model) (line : List Block) : Prop where
  distinct : (model.fields.map Field.name).Nodup
  order : model.fields.map Field.name =
    (line.flatMap fun block => block.members.keys).eraseDups
  latest : ∀ field ∈ model.fields, ∃ member, LastDeclares line field.name member ∧
    field = member.field ∧ model.role? field.name = some member.role ∧
      model.default? field.name = member.start
  roles : model.roles.keys = model.fields.map Field.name
  defaults : model.defaults.keys.Nodup ∧ model.defaults.keys ⊆ model.fields.map Field.name

theorem Model.inherits_merged {model : Model} {line : List Block}
    (keyed : ∀ block ∈ line, block.Keyed)
    (fields : model.fields = (mergeMembers line).fields.values)
    (roles : model.roles = (mergeMembers line).roles)
    (defaults : model.defaults = (mergeMembers line).defaults) : model.Inherits line := by
  have holds := holds_mergeMembers line
  have named := named_writeMembers (line.flatMap fun block => block.members.values)
  have isFields : model.fields = (lineTable line).entries.map fun entry => entry.2.field := by
    rw [fields, OrderedMap.values, holds.fields, List.map_map]
    rfl
  have names : model.fields.map Field.name = (lineTable line).keys := by
    rw [isFields, List.map_map]
    exact List.map_congr_left named
  have distinct : (lineTable line).keys.Nodup := nodup_writeMembers _
  refine ⟨names ▸ distinct, names.trans (keys_lineTable keyed), fun field isField => ?_, ?_, ?_, ?_⟩
  · rw [isFields] at isField
    obtain ⟨entry, isEntry, rfl⟩ := List.mem_map.1 isField
    have found := OrderedMap.get?_of_mem distinct isEntry
    rw [named entry isEntry]
    refine ⟨entry.2, lastDeclares_of_get? keyed found, rfl, ?_, ?_⟩
    · rw [Model.role?, roles, holds.role?, found]
      rfl
    · rw [Model.default?, defaults, holds.default?, found]
      rfl
  · rw [names, roles, OrderedMap.keys, holds.roles, List.map_map]
    rfl
  · rw [defaults]
    exact holds.distinct
  · intro name listed
    obtain ⟨start, isStart⟩ := OrderedMap.mem_keys_iff.1 listed
    rw [defaults, holds.default?] at isStart
    obtain ⟨member, found, -⟩ := Option.bind_eq_some_iff.1 isStart
    rw [names]
    exact OrderedMap.mem_keys_iff.2 ⟨member, found⟩

/-- Every model of a source is that of a block, and has its fields from the line of its name. -/
theorem Schema.inherits_parse {source : String} {entry : String × Model}
    (listed : entry ∈ (Schema.parse source).models.entries) :
    entry.2.name = entry.1 ∧ entry.1 ∈ (sourceBlocks source).keys ∧
      entry.2.Inherits (lineageBlocks (sourceBlocks source) entry.1) := by
  obtain ⟨⟨name, block⟩, isBlock, isModel⟩ := List.mem_filterMap.1 listed
  obtain ⟨model, found, rfl⟩ := Option.map_eq_some_iff.1 isModel
  simp only [modelOf?, Option.ite_none_right_eq_some, Option.some.injEq] at found
  obtain ⟨-, rfl⟩ := found
  refine ⟨rfl, List.mem_map_of_mem isBlock, Model.inherits_merged ?_ rfl rfl rfl⟩
  intro ancestor inLine
  obtain ⟨ancestorName, -, isAncestor⟩ := List.mem_filterMap.1 inLine
  exact keyed_gatherBlocks _ _ _ (OrderedMap.mem_entries_of_get? isAncestor)

/-- Along the parents of any blocks, lineages are lines from a root down to a name. Every model of
a source has its fields from the line of its name: in the order in which they first appear on it,
and each as the last block that declares it says. -/
theorem inheritance_parse :
    (∀ blocks : OrderedMap String Block, ∀ name ∈ blocks.keys,
      IsLineage blocks name (lineage blocks name)) ∧
    ∀ source, ∀ entry ∈ (Schema.parse source).models.entries,
      entry.2.name = entry.1 ∧ entry.1 ∈ (sourceBlocks source).keys ∧
        entry.2.Inherits (lineageBlocks (sourceBlocks source) entry.1) :=
  ⟨fun _ _ listed => isLineage_lineage listed, fun _ _ listed => Schema.inherits_parse listed⟩

/-- Two blocks that derive from each other have lineages, and a class that overrides a field keeps
the place of the field and drops its default. -/
theorem inheritance_override :
    let blocks : OrderedMap String Block :=
      ⟨[("Egg", { parent := some "Hen" }), ("Hen", { parent := some "Egg" })]⟩
    let source := "class Shape(BaseModel):\n    size: int = 1\n    label: str = \"\"\n" ++
      "class Disc(Shape):\n    radius: float = 0.5\n    size: float\n"
    ("Egg" ∈ blocks.keys ∧ lineage blocks "Egg" = ["Hen", "Egg"] ∧
      IsLineage blocks "Egg" (lineage blocks "Egg")) ∧
    ∃ entry ∈ (Schema.parse source).models.entries, entry.1 = "Disc" ∧
      entry.2.fields.map Field.rawType = ["float", "str", "float"] ∧
      entry.2.defaults.keys = ["label", "radius"] ∧
      entry.2.Inherits (lineageBlocks (sourceBlocks source) "Disc") := by
  intro blocks source
  have isKey : "Egg" ∈ blocks.keys := by decide
  refine ⟨⟨isKey, by decide +kernel, inheritance_parse.1 blocks "Egg" isKey⟩, ?_⟩
  have models : (Schema.parse source).models.entries.map (fun entry =>
      (entry.1, entry.2.fields.map Field.rawType, entry.2.defaults.keys)) =
        [("Shape", ["int", "str"], ["size", "label"]),
          ("Disc", ["float", "str", "float"], ["label", "radius"])] := by decide +kernel
  have disc : ("Disc", ["float", "str", "float"], ["label", "radius"]) ∈
      (Schema.parse source).models.entries.map (fun entry =>
        (entry.1, entry.2.fields.map Field.rawType, entry.2.defaults.keys)) := by
    rw [models]
    exact List.mem_cons_of_mem _ List.mem_cons_self
  obtain ⟨entry, isEntry, same⟩ := List.mem_map.1 disc
  simp only [Prod.mk.injEq] at same
  obtain ⟨isDisc, types, starts⟩ := same
  have inherits := (inheritance_parse.2 source entry isEntry).2.2
  exact ⟨entry, isEntry, isDisc, types, starts, isDisc ▸ inherits⟩

end Workflow
