/-
This file proves what schema sources make of the types that fields are declared with.

The raw type of a field is the declared type without its wrapper, with the aliases of the
source expanded. If every alias is bound once and refers only to aliases bound before
it, the raw type is the declared type with the aliases outside string literals replaced
by what they stand for exactly if no literal that gets into it holds the name of an alias.
Names in literals are replaced like all others.
-/

import Workflow.Proofs.Schema.Expansions
import Workflow.Proofs.Schema.Merging

namespace Workflow

open Text Declaration

namespace Declaration

/-! ### Declared types -/

theorem unwrap_fst (constants : Constants) (type : List Char) :
    (unwrap constants type).1 = (unwrap {} type).1 := by
  rw [unwrap, unwrap]
  split
  · split <;> rfl
  · rfl

/-- A declared type without its wrapper and the blanks around it. -/
def bareType (type : List Char) : List Char := trim (unwrap {} type).1

/-- The part of a stored field in front of its equals sign. -/
def Stored.typePart (stored : Stored) : List Char :=
  trim ((cutAssign stored.declaration).elim stored.declaration Prod.fst)

/-- A line declares a member with a type. -/
inductive Member.TypedBy (environment : Environment) (line : List Char) :
    Member → List Char → Prop
  | stored {stored : Stored} {member : Member} (isLine : Stored.ofLine line = some stored)
      (isMember : Member.ofStored environment stored = some member) :
      TypedBy environment line member (bareType stored.typePart)
  | accessor {accessor : Accessor} (isLine : Accessor.ofLine line = some accessor) :
      TypedBy environment line (.ofAccessor environment accessor) (bareType accessor.type)

section Typed

variable {environment : Environment} {line type : List Char} {member : Member}

theorem Member.DeclaredBy.exists_typedBy (declared : member.DeclaredBy environment line) :
    ∃ type, member.TypedBy environment line type := by
  cases declared with
  | stored isLine isMember => exact ⟨_, .stored isLine isMember⟩
  | accessor isLine => exact ⟨_, .accessor isLine⟩

theorem rawType_declaredField (environment : Environment) (name type : List Char)
    (notes : FieldNotes) :
    (declaredField environment.aliases name (unwrap environment.constants type).1 notes).rawType =
      String.ofList (expandRepeatedly environment.aliases (bareType type)) := by
  rw [unwrap_fst]
  rfl

/-- The raw type of a declared field is its type with aliases expanded. -/
theorem Member.TypedBy.rawType (typed : member.TypedBy environment line type) :
    member.field.rawType = String.ofList (expandRepeatedly environment.aliases type) := by
  cases typed with
  | @stored stored _ isLine isMember =>
    simp only [Member.ofStored, Option.ite_none_left_eq_some, Option.some.injEq] at isMember
    obtain ⟨-, rfl⟩ := isMember
    rw [Stored.typePart]
    cases cutAssign stored.declaration with
    | none => exact rawType_declaredField environment _ _ _
    | some parts => exact rawType_declaredField environment _ _ _
  | @accessor accessor isLine =>
    exact rawType_declaredField environment accessor.name accessor.type
      (unwrap environment.constants accessor.type).2.2

end Typed

/-- Every member of a gathered block is declared by an indented line, with a type. -/
theorem typed_gatherBlocks (environment : Environment) (lines : List (List Char)) :
    ∀ entry ∈ (gatherBlocks environment lines).entries, ∀ member ∈ entry.2.members.values,
      ∃ line ∈ lines, indentOf line ≠ 0 ∧ ∃ type, member.TypedBy environment (trim line) type := by
  have lasting : Lasting environment lines fun _ block => ∀ member ∈ block.members.values,
      ∃ line ∈ lines, indentOf line ≠ 0 ∧ ∃ type, member.TypedBy environment (trim line) type := by
    refine ⟨fun _ _ _ _ _ member listed => absurd listed List.not_mem_nil,
      fun line listed indented member declared _ block typed => ?_⟩
    exact Block.forall_mem_addMember typed ⟨line, listed, indented, declared.exists_typedBy⟩
  exact lasting.gatherBlocks.2

end Declaration

/-! ### Fields of models -/

/-- The aliases that a source binds, in order. -/
def sourceAliases (source : String) : List TypeAlias := typeAliases (logicalLines source.toList)

/-- What a field has for its raw type, given the aliases of its source and its declared type. -/
structure Field.Expands (field : Field) (declared : List TypeAlias) (type : List Char) : Prop where
  /-- Aliases are expanded outside literals alone exactly if no literal names an alias. -/
  outer : field.rawType.toList = expandOuter declared type ↔ ¬QuotesAlias declared type
  unnamed : ¬QuotesAlias declared type → ¬NamesAlias declared field.rawType.toList
  /-- Names in literals are replaced like all others. -/
  everywhere : Ordered names declared →
    field.rawType.toList = replaceNames (bindAll replaceNames declared) type ∧
      ¬NamesAlias declared field.rawType.toList

/-- If the aliases of a source are bound once and refer only to those before them, the raw type of
every field is its declared type with the aliases outside literals expanded in full exactly if no
literal that gets into it names an alias, and no alias is left then. Aliases named in literals are
expanded as well. -/
theorem rawType_parse (source : String) (ordered : Ordered (namesAt false) (sourceAliases source)) :
    ∀ entry ∈ (Schema.parse source).models.entries, ∀ field ∈ entry.2.fields,
      ∃ member, LastDeclares (lineageBlocks (sourceBlocks source) entry.1) field.name member ∧
        field = member.field ∧
        ∃ line ∈ logicalLines source.toList, indentOf line ≠ 0 ∧
          ∃ type, member.TypedBy (Bindings.ofLines (logicalLines source.toList)) (trim line) type ∧
            field.Expands (sourceAliases source) type := by
  intro entry listed field isField
  obtain ⟨member, last, rfl, -⟩ := (Schema.inherits_parse listed).2.2.latest field isField
  refine ⟨member, last, rfl, ?_⟩
  obtain ⟨before, block, after, split, isMember, -⟩ := last
  have inLine : block ∈ lineageBlocks (sourceBlocks source) entry.1 :=
    split ▸ List.mem_append_right before List.mem_cons_self
  obtain ⟨name, -, isBlock⟩ := List.mem_filterMap.1 inLine
  obtain ⟨line, isLine, indented, type, typed⟩ := typed_gatherBlocks _ _ _
    (OrderedMap.mem_entries_of_get? isBlock) member
    (List.mem_map_of_mem (OrderedMap.mem_entries_of_get? isMember))
  refine ⟨line, isLine, indented, type, typed, ?_⟩
  have raw : member.field.rawType.toList =
      expandRepeatedly (bindAll expandRepeatedly (sourceAliases source)) type := by
    rw [typed.rawType, String.toList_ofList, aliases_ofLines]
    rfl
  refine ⟨?_, fun unquoted => ?_, fun all => ?_⟩
  · rw [raw]
    exact expandRepeatedly_eq_iff ordered type
  · rw [raw]
    exact not_namesAlias_expandRepeatedly ordered unquoted
  · obtain ⟨same, none⟩ := expandRepeatedly_all all type
    rw [raw, same]
    exact ⟨rfl, none⟩

/-- Aliases are expanded however deep they go, and so is one that a literal names. -/
theorem rawType_deep :
    let source := "Item = int\nItems = List[Item]\nBook = Dict[str, Items]\n" ++
      "class Town(BaseModel):\n    book: Optional[Book]\n    kind: Literal[\"Item\", \"Book.a\"]\n"
    Ordered (namesAt false) (sourceAliases source) ∧
      ∃ entry ∈ (Schema.parse source).models.entries,
        entry.2.fields.map Field.rawType =
          ["Optional[Dict[str, List[int]]]", "Literal[\"int\", \"Book.a\"]"] ∧
        ∀ field ∈ entry.2.fields,
          ∃ member, LastDeclares (lineageBlocks (sourceBlocks source) entry.1) field.name member ∧
            field = member.field ∧
            ∃ line ∈ logicalLines source.toList, indentOf line ≠ 0 ∧
              ∃ type,
                member.TypedBy (Bindings.ofLines (logicalLines source.toList)) (trim line) type ∧
                  field.Expands (sourceAliases source) type := by
  intro source
  have aliases : sourceAliases source = [⟨"Item", "int".toList⟩, ⟨"Items", "List[Item]".toList⟩,
      ⟨"Book", "Dict[str, Items]".toList⟩] := by decide +kernel
  have ordered : Ordered (namesAt false) (sourceAliases source) := by
    rw [aliases]
    exact ⟨by decide, by decide +kernel, by decide +kernel⟩
  have types : (Schema.parse source).models.entries.map (fun entry =>
      entry.2.fields.map Field.rawType) =
        [["Optional[Dict[str, List[int]]]", "Literal[\"int\", \"Book.a\"]"]] := by decide +kernel
  obtain ⟨entry, listed, isTypes⟩ := List.mem_map.1 (types ▸ List.mem_singleton_self _)
  exact ⟨ordered, entry, listed, isTypes, rawType_parse source ordered entry listed⟩

/-- A choice in a literal that is the name of an alias is replaced, so the raw type is not the
declared type with the aliases outside literals expanded. -/
theorem rawType_quoted :
    let source := "Sum = List[int]\nclass A(BaseModel):\n    x: Literal[\"Sum\"] = \"Sum\"\n"
    Ordered (namesAt false) (sourceAliases source) ∧
      ¬∀ entry ∈ (Schema.parse source).models.entries, ∀ field ∈ entry.2.fields,
        ∃ line ∈ logicalLines source.toList, ∃ (member : Member) (type : List Char),
          member.TypedBy (Bindings.ofLines (logicalLines source.toList)) (trim line) type ∧
            member.field = field ∧
              field.rawType.toList = expandOuter (sourceAliases source) type := by
  intro source
  have aliases : sourceAliases source = [⟨"Sum", "List[int]".toList⟩] := by decide +kernel
  have ordered : Ordered (namesAt false) (sourceAliases source) := by
    rw [aliases]
    exact ⟨by decide, by decide +kernel, by decide +kernel⟩
  refine ⟨ordered, fun expanded => ?_⟩
  have types : ((Schema.parse source).models.entries.flatMap fun entry =>
      entry.2.fields.map Field.rawType) = ["Literal[\"List[int]\"]"] := by decide +kernel
  have apart : ∀ line ∈ logicalLines source.toList,
      (∀ stored ∈ Stored.ofLine (trim line), "Literal[\"List[int]\"]".toList ≠
        expandOuter (sourceAliases source) (bareType stored.typePart)) ∧
      ∀ accessor ∈ Accessor.ofLine (trim line), "Literal[\"List[int]\"]".toList ≠
        expandOuter (sourceAliases source) (bareType accessor.type) := by decide +kernel
  obtain ⟨entry, listed, isType⟩ := List.mem_flatMap.1 (types ▸ List.mem_singleton_self _)
  obtain ⟨field, isField, raw⟩ := List.mem_map.1 isType
  obtain ⟨line, isLine, member, type, typed, -, same⟩ := expanded entry listed field isField
  rw [raw] at same
  cases typed with
  | stored isStored _ => exact (apart line isLine).1 _ isStored same
  | accessor isAccessor => exact (apart line isLine).2 _ isAccessor same

end Workflow
