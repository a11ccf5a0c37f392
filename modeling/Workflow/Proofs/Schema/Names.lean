/-
This file proves what schema sources promise about the names of fields and models.

A name in a source is a word, so it holds no dot. Members of a block are kept by
name, and so are the fields that a lineage of blocks merges, so that no two fields
of a model have the same name. The type of a field is what its text is read as. The
blueprint of every declared model is sound. Blocks, and the models that they become,
are kept by name as well.
-/

import Workflow.Proofs.Node.Blueprint
import Workflow.Proofs.Schema.Members

namespace Workflow

open Text

namespace Declaration

/-- A member whose field has a word for its name and the type that its text is read as. -/
structure Member.Sound (member : Member) : Prop where
  dotless : '.' ∉ member.field.name.toList
  typed : member.field.type = TypeExpr.parse member.field.rawType

/-- A member that a line declares. -/
inductive Member.IsRead (environment : Environment) : Member → Prop
  | stored {line : List Char} {stored : Stored} {member : Member}
      (isLine : Stored.ofLine line = some stored)
      (isMember : Member.ofStored environment stored = some member) : IsRead environment member
  | accessor {line : List Char} {accessor : Accessor}
      (isLine : Accessor.ofLine line = some accessor) :
      IsRead environment (.ofAccessor environment accessor)

/-- A block all of whose members are read from lines. -/
def Block.IsRead (environment : Environment) (block : Block) : Prop :=
  ∀ member ∈ block.members.values, member.IsRead environment

/-- A block all of whose members are sound. -/
def Block.Sound (block : Block) : Prop := ∀ member ∈ block.members.values, member.Sound

theorem dotless_of_scanName {line name rest : List Char}
    (scanned : scanName line = some (name, rest)) : '.' ∉ name := by
  rw [scanName.eq_def] at scanned
  split at scanned
  · cases scanned
  · next c others =>
    split at scanned
    · next opens =>
      cases scanned
      intro member
      rcases List.mem_cons.1 member with rfl | later
      · exact absurd opens (by decide)
      · exact absurd (List.all_eq_true.1 List.all_takeWhile _ later) (by decide)
    · cases scanned

theorem dotless_of_stored {line : List Char} {stored : Stored}
    (read : Stored.ofLine line = some stored) : '.' ∉ stored.name := by
  rw [Stored.ofLine] at read
  split at read
  · cases read
  · next name rest scanned =>
    split at read
    · split at read
      · cases read
      · cases read
        exact dotless_of_scanName scanned
    · cases read

theorem dotless_of_accessor {line : List Char} {accessor : Accessor}
    (read : Accessor.ofLine line = some accessor) : '.' ∉ accessor.name := by
  simp only [Accessor.ofLine, Option.bind_eq_bind, Option.bind_eq_some_iff] at read
  obtain ⟨body, -, text, -, ⟨name, rest⟩, scanned, isAccessor⟩ := read
  split at isAccessor
  · obtain ⟨type, -, rfl⟩ := Option.map_eq_some_iff.1 isAccessor
    exact dotless_of_scanName scanned
  · cases isAccessor

theorem dotless_of_header {line : List Char} {header : Header}
    (read : Header.ofLine line = some header) : '.' ∉ header.name := by
  simp only [Header.ofLine, Option.bind_eq_bind, Option.bind_eq_some_iff] at read
  obtain ⟨body, -, text, -, ⟨name, rest⟩, scanned, bases, -, isHeader⟩ := read
  cases isHeader
  exact dotless_of_scanName scanned

theorem Member.sound_ofStored {environment : Environment} {stored : Stored} {member : Member}
    (read : Member.ofStored environment stored = some member) (dotless : '.' ∉ stored.name) :
    member.Sound := by
  simp only [Member.ofStored, Option.ite_none_left_eq_some, Option.some.injEq] at read
  obtain ⟨-, rfl⟩ := read
  refine ⟨?_, rfl⟩
  show '.' ∉ (String.ofList stored.name).toList
  rw [String.toList_ofList]
  exact dotless

theorem Member.sound_ofAccessor (environment : Environment) {accessor : Accessor}
    (dotless : '.' ∉ accessor.name) : (Member.ofAccessor environment accessor).Sound := by
  refine ⟨?_, rfl⟩
  show '.' ∉ (String.ofList accessor.name).toList
  rw [String.toList_ofList]
  exact dotless

theorem Member.IsRead.sound {environment : Environment} {member : Member}
    (isRead : member.IsRead environment) : member.Sound := by
  cases isRead with
  | stored isLine isMember => exact Member.sound_ofStored isMember (dotless_of_stored isLine)
  | accessor isLine => exact Member.sound_ofAccessor environment (dotless_of_accessor isLine)

theorem Block.IsRead.sound {environment : Environment} {block : Block}
    (isRead : block.IsRead environment) : block.Sound :=
  fun member listed => (isRead member listed).sound

theorem Member.DeclaredBy.isRead {environment : Environment} {line : List Char} {member : Member}
    (declared : member.DeclaredBy environment line) : member.IsRead environment := by
  cases declared with
  | stored isLine isMember => exact .stored isLine isMember
  | accessor isLine => exact .accessor isLine

theorem isRead_gatherBlocks (environment : Environment) (lines : List (List Char)) :
    (gatherBlocks environment lines).keys.Nodup ∧
      ∀ entry ∈ (gatherBlocks environment lines).entries,
        '.' ∉ entry.1.toList ∧ entry.2.IsRead environment := by
  have lasting : Lasting environment lines fun name block =>
      '.' ∉ name.toList ∧ block.IsRead environment := by
    refine ⟨fun line _ header isHeader presentation => ⟨?_, ?_⟩,
      fun line _ _ member declared name block read => read.imp_right fun isRead =>
        Block.forall_mem_addMember isRead declared.isRead⟩
    · rw [String.toList_ofList]
      exact dotless_of_header isHeader
    · exact fun member listed => absurd listed List.not_mem_nil
  exact lasting.gatherBlocks

theorem sound_gatherBlocks (environment : Environment) (lines : List (List Char)) :
    (gatherBlocks environment lines).keys.Nodup ∧
      ∀ entry ∈ (gatherBlocks environment lines).entries,
        '.' ∉ entry.1.toList ∧ entry.2.Sound := by
  obtain ⟨distinct, blocks⟩ := isRead_gatherBlocks environment lines
  exact ⟨distinct, fun entry member => (blocks entry member).imp_right Block.IsRead.sound⟩

/-- The merged fields are kept under their names, which are words, and with the types that their
texts are read as; only they have roles. -/
structure Merged.Sound (merged : Merged) : Prop where
  distinct : merged.fields.keys.Nodup
  named : ∀ entry ∈ merged.fields.entries, entry.2.name = entry.1 ∧ '.' ∉ entry.1.toList
  typed : ∀ entry ∈ merged.fields.entries, entry.2.type = TypeExpr.parse entry.2.rawType
  roles : merged.roles.keys ⊆ merged.fields.keys

theorem Merged.Sound.add {merged : Merged} (sound : merged.Sound) {member : Member}
    (added : member.Sound) : (merged.add member).Sound where
  distinct := OrderedMap.nodup_keys_insert sound.distinct _ _
  named entry isEntry := by
    rcases OrderedMap.mem_entries_insert isEntry with rfl | old
    · exact ⟨rfl, added.dotless⟩
    · exact sound.named entry old
  typed entry isEntry := by
    rcases OrderedMap.mem_entries_insert isEntry with rfl | old
    · exact added.typed
    · exact sound.typed entry old
  roles name listed := by
    show name ∈ (merged.fields.insert _ _).keys
    change name ∈ (merged.roles.insert _ _).keys at listed
    rw [OrderedMap.mem_keys_insert] at listed ⊢
    exact listed.imp_right fun old => sound.roles old

theorem sound_mergeMembers {blocks : List Block} (sound : ∀ block ∈ blocks, block.Sound) :
    (mergeMembers blocks).Sound := by
  have members : ∀ member ∈ blocks.flatMap fun block => block.members.values, member.Sound := by
    intro member listed
    obtain ⟨block, isBlock, isMember⟩ := List.mem_flatMap.1 listed
    exact sound block isBlock member isMember
  refine List.foldlRecOn _ _ ⟨List.nodup_nil, fun _ member => absurd member List.not_mem_nil,
    fun _ member => absurd member List.not_mem_nil, List.nil_subset _⟩ ?_
  exact fun merged sound member listed => sound.add (members member listed)

theorem fields_of_modelOf? {blocks : OrderedMap String Block} {name : String} {block : Block}
    {model : Model} (isModel : modelOf? blocks name block = some model)
    (sound : ∀ entry ∈ blocks.entries, entry.2.Sound) :
    model.name = name ∧ ∃ merged : Merged, merged.Sound ∧ model.fields = merged.fields.values ∧
      model.roles = merged.roles := by
  simp only [modelOf?, Option.ite_none_right_eq_some, Option.some.injEq] at isModel
  obtain ⟨-, rfl⟩ := isModel
  refine ⟨rfl, _, sound_mergeMembers fun member listed => ?_, rfl, rfl⟩
  obtain ⟨ancestor, -, isBlock⟩ := List.mem_filterMap.1 listed
  exact sound _ (OrderedMap.mem_entries_of_get? isBlock)

end Declaration

open Declaration

/-- What a source promises of a model: its fields are kept under their names, which are words, and
with the types that their texts are read as, and only they have roles. -/
theorem Model.exists_merged {source : String} {model : Model}
    (declared : model ∈ (Schema.parse source).models.values) :
    ∃ merged : Merged, merged.Sound ∧ model.fields = merged.fields.values ∧
      model.roles = merged.roles := by
  obtain ⟨⟨name, other⟩, isEntry, rfl⟩ := List.mem_map.1 declared
  obtain ⟨⟨blockName, block⟩, -, isModel⟩ := List.mem_filterMap.1 isEntry
  obtain ⟨found, isFound, same⟩ := Option.map_eq_some_iff.1 isModel
  cases same
  exact (fields_of_modelOf? isFound fun entry member =>
    ((sound_gatherBlocks _ _).2 entry member).2).2

/-- Fields of declared models are told apart by their names, which hold no dot, and have the types
that their texts are read as. -/
theorem Blueprint.sound_of_parse {source : String} {model : Model}
    (declared : model ∈ (Schema.parse source).models.values) (modelRef : String) :
    (Blueprint.ofModel modelRef model).Sound := by
  obtain ⟨merged, sound, fields, -⟩ := Model.exists_merged declared
  have names : (Blueprint.ofModel modelRef model).fields.map (fun entry => entry.1.name) =
      merged.fields.keys := by
    show (model.fieldsWithRoles).map _ = _
    rw [Model.fieldsWithRoles, fields, List.map_map, OrderedMap.values, List.map_map]
    exact List.map_congr_left fun entry member => (sound.named entry member).1
  refine ⟨names ▸ sound.distinct, fun entry member => ?_, fun entry member => ?_⟩
  · have listed : entry.1.name ∈ merged.fields.keys := names ▸ List.mem_map_of_mem member
    obtain ⟨kept, isKept, same⟩ := List.mem_map.1 listed
    exact same ▸ (sound.named kept isKept).2
  · obtain ⟨field, isField, rfl⟩ := List.mem_map.1 member
    rw [fields] at isField
    obtain ⟨kept, isKept, rfl⟩ := List.mem_map.1 isField
    exact sound.typed kept isKept

/-- Only fields of declared models have roles. -/
theorem Model.exists_field_of_parse {source : String} {model : Model}
    (declared : model ∈ (Schema.parse source).models.values) {name : String} {role : Role}
    (isRole : model.role? name = some role) : ∃ field ∈ model.fields, field.name = name := by
  obtain ⟨merged, sound, fields, roles⟩ := Model.exists_merged declared
  rw [Model.role?, roles] at isRole
  obtain ⟨kept, isKept, same⟩ :=
    List.mem_map.1 (sound.roles (OrderedMap.mem_keys_iff.2 ⟨role, isRole⟩))
  refine ⟨kept.2, ?_, (sound.named kept isKept).1.trans same⟩
  rw [fields]
  exact List.mem_map_of_mem isKept

/-- Models are kept under their names, which are words and tell them apart. -/
theorem Schema.named_parse (source : String) :
    (Schema.parse source).models.keys.Nodup ∧ ∀ entry ∈ (Schema.parse source).models.entries,
      entry.2.name = entry.1 ∧ '.' ∉ entry.1.toList := by
  obtain ⟨distinct, blocks⟩ := sound_gatherBlocks (Bindings.ofLines (logicalLines source.toList))
    (logicalLines source.toList)
  have kept {name : String} {block : Block} {entry : String × Model}
      (isModel : (modelOf? (gatherBlocks (Bindings.ofLines (logicalLines source.toList))
        (logicalLines source.toList)) name block).map (fun model => (name, model)) = some entry) :
      entry.1 = name ∧ entry.2.name = name := by
    obtain ⟨model, isFound, rfl⟩ := Option.map_eq_some_iff.1 isModel
    exact ⟨rfl, (fields_of_modelOf? isFound fun entry member => (blocks entry member).2).1⟩
  constructor
  · refine List.pairwise_map.2 ((List.pairwise_map.1 distinct).filterMap _ ?_)
    intro first second apart one isOne other isOther same
    exact apart ((kept isOne).1.symm.trans (same.trans (kept isOther).1))
  · intro entry member
    obtain ⟨⟨name, block⟩, isBlock, isModel⟩ := List.mem_filterMap.1 member
    obtain ⟨isName, named⟩ := kept isModel
    exact ⟨named.trans isName.symm, isName ▸ (blocks _ isBlock).1⟩

end Workflow
