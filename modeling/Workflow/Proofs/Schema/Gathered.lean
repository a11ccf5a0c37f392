/-
This file proves that the blocks of a written source are its classes, each with the
members that its fields declare.

Reading goes line by line: the header of a class closes the block before it and opens
a new one, and every line of a field adds a member at its end, because the names of the
fields are distinct. Nothing is bound at the top of such a source, so constants and
aliases play no part.
-/

import Workflow.Proofs.OrderedMap
import Workflow.Proofs.Schema.Field
import Workflow.Schema.Declaration.Block

namespace Workflow

open Text Declaration

/-! ### Members and blocks -/

/-- The member that a field declares. -/
def WrittenField.member (field : WrittenField) : Member :=
  ⟨field.field, field.role, field.default?⟩

/-- The members that fields declare, by name. -/
def memberEntries (fields : List WrittenField) : List (String × Member) :=
  fields.map fun field => (field.name, field.member)

namespace WrittenClass

/-- The base of a class may be declared by a source. -/
def Based (declared : WrittenClass) : Prop :=
  ∀ base ∈ declared.base, isIdentifier base.toList = true ∧ base.toList ∉ foreignBases

/-- The block that a class declares. -/
def block (declared : WrittenClass) : Block where
  parent := declared.base
  derivesModel := true
  members := ⟨memberEntries declared.fields⟩

variable {declared : WrittenClass} (based : declared.Based)
include based

theorem isIdentifier_bases : isIdentifier declared.bases = true := by
  rw [bases]
  cases base : declared.base with
  | none => decide
  | some name => exact (based name base).1

/-! ### Headers -/

theorem isValue_call : IsValue declared.call :=
  have isBases := isValue_of_isIdentifier (isIdentifier_bases based)
  isValue_enclosed (isValue_of_isIdentifier declared.named) rfl rfl isBases.oneLine
    isBases.balanced isBases.uncommented

theorem statement_header : Statement declared.header := by
  have colon : IsValue [':'] := isValue_of_bare (by decide) (List.all_eq_true.1 (by decide))
  have keyword : IsValue classWord := isValue_of_bare (by decide) (List.all_eq_true.1 (by decide))
  have between : ∀ c ∈ [' '], isSpacing c = true := List.all_eq_true.1 (by decide)
  refine ⟨?_, fun c isFirst => ?_⟩
  · exact keyword.append between ((isValue_call based).append (List.forall_mem_nil _) colon)
  · cases isFirst
    rfl

/-- A header is read as the name of its class and the bases. -/
theorem ofLine_header :
    Header.ofLine declared.header = some ⟨declared.name.toList, declared.bases⟩ := by
  have parts : declared.header = (classWord ++ ' ' :: declared.call) ++ [':'] := by
    rw [header, List.append_assoc, List.cons_append]
  have body : beforeFinalColon declared.header = some (classWord ++ ' ' :: declared.call) := by
    rw [parts, beforeFinalColon, List.getLast?_concat, if_pos rfl, List.dropLast_concat]
  have keyword : afterKeyword "class".toList (classWord ++ ' ' :: declared.call) =
      some declared.call := by
    show afterKeyword classWord (classWord ++ ' ' :: declared.call) = _
    rw [afterKeyword, List.take_left, List.drop_left, (isValue_call based).trimStart_cons rfl]
    exact if_pos ⟨rfl, rfl⟩
  have scanned : scanName declared.call =
      some (declared.name.toList, '(' :: (declared.bases ++ [')'])) :=
    scanName_append declared.named rfl _
  have inner : parenthesized ('(' :: (declared.bases ++ [')'])) = some declared.bases := by
    have trimmed : trim ('(' :: (declared.bases ++ [')'])) = '(' :: (declared.bases ++ [')']) := by
      refine trim_eq_self (by rintro _ ⟨⟩; rfl) fun c isLast => ?_
      rw [← List.cons_append, List.getLast?_concat] at isLast
      cases isLast
      rfl
    rw [parenthesized, trimmed]
    simp only [List.getLast?_concat, List.dropLast_concat, if_true]
  simp only [Header.ofLine, body, keyword, scanned, inner, Option.bind_eq_bind, Option.bind_some]

omit based in
/-- The header of a class binds nothing. -/
theorem binding_header : Binding.ofLine declared.header = none := by
  have scanned : scanName declared.header =
      some (classWord, ' ' :: (declared.call ++ [':'])) :=
    have isKeyword : isIdentifier classWord = true := by decide
    scanName_append isKeyword rfl _
  obtain ⟨c, tail, spelled, opens, -⟩ := exists_of_isIdentifier declared.named
  have called : declared.call ++ [':'] =
      c :: (tail ++ '(' :: (declared.bases ++ [')'])) ++ [':'] := by
    rw [call, spelled]
    rfl
  have visible : ¬isBlank c = true := by
    rw [isBlank_of_isWord (isWord_of_opensName opens)]
    exact Bool.false_ne_true
  rw [Binding.ofLine, scanned]
  dsimp only
  rw [called, List.cons_append, trimStart, List.dropWhile_cons_of_pos rfl,
    List.dropWhile_cons_of_neg visible]
  -- A binding goes on with an equals sign or a colon.
  split
  · next same =>
    obtain ⟨rfl, -⟩ := List.cons.inj same
    cases opens
  · next same =>
    obtain ⟨rfl, -⟩ := List.cons.inj same
    cases opens
  · rfl

theorem ofHeader_header :
    Block.ofHeader ⟨declared.name.toList, declared.bases⟩ {} =
      { parent := declared.base, derivesModel := true } := by
  have isBases := isIdentifier_bases based
  have parts : splitTopLevel ',' declared.bases = [declared.bases] := by
    rw [splitTopLevel_of_undivided (undivided_of_notMem (notMem_of_isIdentifier isBases rfl)),
      (isValue_of_isIdentifier isBases).trim_eq]
  have name : baseName declared.bases = declared.bases := by
    have whole : beforeFirst '[' declared.bases = declared.bases :=
      List.takeWhile_eq_self_iff.2 fun c member =>
        decide_eq_true (ne_of_isWord (isWord_of_isIdentifier isBases c member) rfl)
    rw [baseName, whole, (isValue_of_isIdentifier isBases).trim_eq]
  have named : [declared.bases].filter (fun base => !base.isEmpty && !base.contains '=') =
      [declared.bases] := by
    have nonempty := (isValue_of_isIdentifier isBases).ne_nil
    have absent : '=' ∉ declared.bases := notMem_of_isIdentifier isBases rfl
    simp [nonempty, absent]
  have parent : firstParent declared.bases = declared.base := by
    rw [firstParent, parts, named, List.map_singleton, name, bases]
    cases base : declared.base with
    | none => rfl
    | some name =>
      have native := (based name base).2
      simp [native]
  have model (unbased : declared.base = none) : hasModelBase declared.bases = true := by
    rw [hasModelBase, parts, List.map_singleton, name, bases, unbased]
    rfl
  rw [Block.ofHeader, parent]
  cases base : declared.base with
  | none => rw [model base]; rfl
  | some name => rfl

end WrittenClass

/-! ### Lines of fields -/

/-- A member line adds the member of its field. -/
theorem WrittenField.readMember_chars (field : WrittenField) (opened : OpenBlock) :
    opened.readMember {} field.chars =
      { opened with accessorNext := false, block := opened.block.addMember field.member } := by
  obtain ⟨c, rest, spelled, opens⟩ := field.statement_chars.exists_opening
  have noDecorator : field.chars.head? ≠ some '@' := by
    rw [spelled]
    rintro ⟨⟩
    cases opens
  have noAccessor : field.chars.take 4 ≠ "def ".toList := by
    intro same
    have spelled : field.chars = "def".toList ++ ' ' :: field.chars.drop 4 := by
      conv_lhs => rw [← List.take_append_drop 4 field.chars, same]
      rfl
    have isKeyword : isIdentifier "def".toList = true := by decide
    have scanned := field.scanName_chars
    rw [spelled, scanName_append isKeyword rfl] at scanned
    have colon : some ' ' = some ':' :=
      congrArg (fun read => read.2.head?) (Option.some.inj scanned)
    exact absurd colon (by decide)
  have shown : ¬isPrivate field.name.toList = true := by
    rw [field.shown]
    exact Bool.false_ne_true
  rw [OpenBlock.readMember, if_neg noDecorator, if_neg noAccessor, field.ofLine_chars]
  dsimp only
  rw [if_neg shown, field.ofStored_declaration]
  rfl

section Fields

variable {indent : List Char} (isIndent : IsIndent indent)
include isIndent

theorem readIndented_field (field : WrittenField) {opened : OpenBlock}
    (fixed : ∀ other ∈ opened.indent, other = byteSize indent) :
    opened.readIndented {} (indent ++ field.chars) =
      { opened with
        indent := some (byteSize indent)
        accessorNext := false
        block := opened.block.addMember field.member } := by
  have same : opened.indent.getD (byteSize indent) = byteSize indent := by
    cases known : opened.indent with
    | none => rfl
    | some other => exact fixed other known
  rw [OpenBlock.readIndented, field.statement_chars.indentOf_indented isIndent, same,
    field.statement_chars.trim_indented isIndent]
  rw [if_pos rfl, field.readMember_chars]

/-- The lines of fields add their members to the open block, one after the other. -/
theorem foldl_readIndented {fields : List WrittenField} {opened : OpenBlock}
    (fixed : ∀ other ∈ opened.indent, other = byteSize indent)
    (distinct : (opened.block.members.keys ++ fields.map WrittenField.name).Nodup) :
    let read := fields.foldl (fun opened field => opened.readIndented {} (indent ++ field.chars))
      opened
    read.name = opened.name ∧ read.block = { opened.block with
      members := ⟨opened.block.members.entries ++ memberEntries fields⟩ } := by
  induction fields generalizing opened with
  | nil => exact ⟨rfl, by rw [memberEntries, List.map_nil, List.append_nil]; rfl⟩
  | cons field rest inductionHypothesis =>
    have absent : field.name ∉ opened.block.members.keys := fun member =>
      List.disjoint_of_nodup_append distinct member List.mem_cons_self
    let next : OpenBlock :=
      { opened with
        indent := some (byteSize indent)
        accessorNext := false
        block := opened.block.addMember field.member }
    have added : next.block.members.entries =
        opened.block.members.entries ++ [(field.name, field.member)] :=
      OrderedMap.entries_insert_of_notMem absent
    have nextFixed : ∀ other ∈ next.indent, other = byteSize indent := by
      rintro _ ⟨⟩
      rfl
    have later : (next.block.members.keys ++ rest.map WrittenField.name).Nodup := by
      rw [OrderedMap.keys, added, List.map_append, List.append_assoc]
      exact distinct
    rw [List.foldl_cons, readIndented_field isIndent field fixed]
    obtain ⟨sameName, sameBlock⟩ := inductionHypothesis nextFixed later
    refine ⟨sameName, sameBlock.trans ?_⟩
    rw [added, List.append_assoc]
    rfl

theorem indentOf_field_ne_zero (nonempty : indent ≠ []) (field : WrittenField) :
    indentOf (indent ++ field.chars) ≠ 0 := by
  rw [field.statement_chars.indentOf_indented isIndent]
  obtain ⟨c, rest, rfl⟩ := List.exists_cons_of_ne_nil nonempty
  have := c.utf8Size_pos
  rw [byteSize]
  omega

/-- An indented line is read into the open block. -/
theorem read_field (nonempty : indent ≠ []) (field : WrittenField) {gathering : Gathering} :
    gathering.read {} (indent ++ field.chars) =
      { gathering with
        current := gathering.current.map fun opened =>
          opened.readIndented {} (indent ++ field.chars) } := by
  have visible : ¬(trim (indent ++ field.chars)).isEmpty = true := by
    rw [field.statement_chars.trim_indented isIndent, List.isEmpty_iff]
    exact field.statement_chars.ne_nil
  rw [Gathering.read, if_neg visible, if_neg (indentOf_field_ne_zero isIndent nonempty field)]

theorem foldl_read_fields (nonempty : indent ≠ []) (fields : List WrittenField)
    (gathering : Gathering) :
    fields.foldl (fun gathering field => gathering.read {} (indent ++ field.chars)) gathering =
      { gathering with
        current := gathering.current.map fun opened =>
          fields.foldl (fun opened field => opened.readIndented {} (indent ++ field.chars))
            opened } := by
  induction fields generalizing gathering with
  | nil =>
    show gathering = { gathering with current := gathering.current.map id }
    rw [Option.map_id_apply]
  | cons field rest inductionHypothesis =>
    rw [List.foldl_cons, inductionHypothesis, read_field isIndent nonempty, Option.map_map]
    rfl

end Fields

/-! ### Lines of classes -/

theorem Declaration.Gathering.presentation_close (gathering : Gathering) :
    gathering.close.presentation = gathering.presentation := by
  rw [close]
  split <;> rfl

namespace WrittenClass

variable {declared : WrittenClass} (based : declared.Based)
include based

theorem read_header {gathering : Gathering} (undecorated : gathering.presentation = none) :
    gathering.read {} declared.header =
      { current := some
          { name := declared.name
            block := { parent := declared.base, derivesModel := true } }
        blocks := gathering.close.blocks } := by
  have statement := statement_header based
  have visible : ¬(trim declared.header).isEmpty = true := by
    rw [statement.trim_eq, List.isEmpty_iff]
    exact statement.ne_nil
  have flat : indentOf declared.header = 0 := statement.indentOf_indented (List.forall_mem_nil _)
  have noDecorator : Decorator.ofLine declared.header = none := rfl
  rw [Gathering.read, if_neg visible, if_pos flat, statement.trim_eq, Gathering.readTop,
    noDecorator, ofLine_header based]
  dsimp only
  rw [Gathering.presentation_close, undecorated, Option.getD_none, ofHeader_header based,
    String.ofList_toList]

/-- The lines of a class put its block among the blocks. -/
theorem foldl_read_lines {gathering : Gathering} (undecorated : gathering.presentation = none) :
    (declared.lines.foldl (Gathering.read {}) gathering).presentation = none ∧
      (declared.lines.foldl (Gathering.read {}) gathering).close.blocks =
        gathering.close.blocks.insert declared.name declared.block := by
  rw [lines, List.foldl_cons, List.foldl_map, read_header based undecorated,
    foldl_read_fields declared.blank declared.indented]
  refine ⟨rfl, ?_⟩
  let opened : OpenBlock :=
    { name := declared.name
      block := { parent := declared.base, derivesModel := true } }
  have unfixed : ∀ other ∈ opened.indent, other = byteSize declared.indent := by
    rintro _ ⟨⟩
  obtain ⟨name, block⟩ := foldl_readIndented declared.blank unfixed declared.distinct
  rw [Option.map_some, Gathering.close]
  dsimp only
  rw [name, block]
  rfl

end WrittenClass

/-! ### Sources -/

/-- Classes with their blocks, by name. -/
def blockEntries (classes : List WrittenClass) : List (String × Block) :=
  classes.map fun declared => (declared.name, declared.block)

/-- The lines of classes put their blocks at the end, one after the other. -/
theorem entries_foldl_read {classes : List WrittenClass}
    (based : ∀ declared ∈ classes, declared.Based) {gathering : Gathering}
    (undecorated : gathering.presentation = none)
    (distinct : (gathering.close.blocks.keys ++ classes.map WrittenClass.name).Nodup) :
    ((classes.flatMap WrittenClass.lines).foldl (Gathering.read {})
        gathering).close.blocks.entries =
      gathering.close.blocks.entries ++ blockEntries classes := by
  induction classes generalizing gathering with
  | nil => exact (List.append_nil _).symm
  | cons declared rest inductionHypothesis =>
    obtain ⟨isBased, restBased⟩ := List.forall_mem_cons.1 based
    have absent : declared.name ∉ gathering.close.blocks.keys := fun member =>
      List.disjoint_of_nodup_append distinct member List.mem_cons_self
    obtain ⟨stillUndecorated, blocks⟩ := WrittenClass.foldl_read_lines isBased undecorated
    have added : (gathering.close.blocks.insert declared.name declared.block).entries =
        gathering.close.blocks.entries ++ [(declared.name, declared.block)] :=
      OrderedMap.entries_insert_of_notMem absent
    rw [← blocks] at added
    have later : ((declared.lines.foldl (Gathering.read {}) gathering).close.blocks.keys ++
        rest.map WrittenClass.name).Nodup := by
      rw [OrderedMap.keys, added, List.map_append, List.append_assoc]
      exact distinct
    rw [List.flatMap_cons, List.foldl_append,
      inductionHypothesis restBased stillUndecorated later, added, List.append_assoc]
    rfl

namespace WrittenSource

variable (source : WrittenSource)

theorem based_of_mem {declared : WrittenClass} (member : declared ∈ source.classes) :
    declared.Based := by
  intro base isBase
  obtain ⟨before, after, parts⟩ := List.append_of_mem member
  obtain ⟨other, -, rfl⟩ :=
    List.mem_map.1 (source.based before declared after parts base isBase)
  exact ⟨other.named, other.native⟩

theorem logicalLines_text : logicalLines source.text.toList = source.lines := by
  rw [text, String.toList_ofList]
  refine logicalLines_flatMap fun line member => ?_
  obtain ⟨declared, isClass, inClass⟩ := List.mem_flatMap.1 member
  rcases List.mem_cons.1 inClass with rfl | inFields
  · exact ⟨[], declared.header, rfl, List.forall_mem_nil _,
      WrittenClass.statement_header (source.based_of_mem isClass)⟩
  · obtain ⟨field, -, rfl⟩ := List.mem_map.1 inFields
    exact ⟨declared.indent, field.chars, rfl, declared.blank, field.statement_chars⟩

/-- Nothing is bound at the top of a source. -/
theorem ofLines_lines : Bindings.ofLines source.lines = {} := by
  have unbound (line : List Char) (member : line ∈ source.lines) (flat : indentOf line = 0) :
      Binding.ofLine (trim line) = none := by
    obtain ⟨declared, isClass, inClass⟩ := List.mem_flatMap.1 member
    rcases List.mem_cons.1 inClass with rfl | inFields
    · rw [(WrittenClass.statement_header (source.based_of_mem isClass)).trim_eq]
      exact WrittenClass.binding_header
    · obtain ⟨field, -, rfl⟩ := List.mem_map.1 inFields
      exact absurd flat (indentOf_field_ne_zero declared.blank declared.indented field)
  rw [Bindings.ofLines]
  refine List.foldlRecOn (motive := fun bindings : Bindings => bindings = {}) _ _ rfl
    fun bindings same line member => ?_
  obtain ⟨isLine, flat⟩ := List.mem_filter.1 member
  rw [unbound line isLine (eq_of_beq flat)]
  exact same

/-- The blocks of a source are its classes. -/
theorem gatherBlocks_lines : gatherBlocks {} source.lines = ⟨blockEntries source.classes⟩ := by
  have entries := entries_foldl_read (fun declared => source.based_of_mem)
    (rfl : ({} : Gathering).presentation = none) source.distinct
  exact congrArg OrderedMap.mk entries

end WrittenSource

end Workflow
