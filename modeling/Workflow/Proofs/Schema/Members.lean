/-
This file says what holds of every block that a source gathers.

A block starts from the header that opens it and takes one member after the other, each
declared by a line of the source. What holds of fresh blocks and is kept when a declared
member is added therefore holds of all gathered blocks. In particular a block keeps its
members under the names of their fields, and one name has one member: a member that is
declared again takes the place of the earlier one.
-/

import Workflow.Proofs.OrderedMap
import Workflow.Schema.Declaration.Block

namespace Workflow.Declaration

open Text

/-- The member that a line declares. -/
inductive Member.DeclaredBy (environment : Environment) (line : List Char) : Member → Prop
  | stored {stored : Stored} {member : Member} (isLine : Stored.ofLine line = some stored)
      (isMember : Member.ofStored environment stored = some member) :
      DeclaredBy environment line member
  | accessor {accessor : Accessor} (isLine : Accessor.ofLine line = some accessor) :
      DeclaredBy environment line (.ofAccessor environment accessor)

/-! ### Gathering -/

theorem OpenBlock.name_readMember (environment : Environment) (opened : OpenBlock)
    (line : List Char) : (opened.readMember environment line).name = opened.name := by
  rw [readMember]
  dsimp only
  repeat' split
  all_goals rfl

/-- A member line leaves the block as it is or adds the member that it declares. -/
theorem OpenBlock.block_readMember (environment : Environment) (opened : OpenBlock)
    (line : List Char) :
    (opened.readMember environment line).block = opened.block ∨
      ∃ member : Member, member.DeclaredBy environment line ∧
        (opened.readMember environment line).block = opened.block.addMember member := by
  rw [readMember]
  split
  · exact Or.inl rfl
  · split
    · split
      · split
        · next accessor isLine =>
          split
          · exact Or.inl rfl
          · exact Or.inr ⟨_, .accessor isLine, rfl⟩
        · exact Or.inl rfl
      · exact Or.inl rfl
    · split
      · next stored isLine =>
        split
        · exact Or.inl rfl
        · split
          · next member isMember => exact Or.inr ⟨member, .stored isLine isMember, rfl⟩
          · exact Or.inl rfl
      · exact Or.inl rfl

/-- A property of named blocks that fresh blocks have and that members declared by the lines of a
source keep. -/
structure Lasting (environment : Environment) (lines : List (List Char))
    (property : String → Block → Prop) : Prop where
  opened : ∀ line ∈ lines, ∀ header, Header.ofLine (trim line) = some header →
    ∀ presentation, property (String.ofList header.name) (.ofHeader header presentation)
  added : ∀ line ∈ lines, indentOf line ≠ 0 → ∀ member : Member,
    member.DeclaredBy environment (trim line) →
      ∀ name block, property name block → property name (block.addMember member)

/-- All blocks of a gathering have a property, and one name has one block. -/
structure Gathering.All (property : String → Block → Prop) (gathering : Gathering) : Prop where
  current : ∀ opened ∈ gathering.current, property opened.name opened.block
  distinct : gathering.blocks.keys.Nodup
  blocks : ∀ entry ∈ gathering.blocks.entries, property entry.1 entry.2

section Gathering

variable {environment : Environment} {lines : List (List Char)} {property : String → Block → Prop}
  {gathering : Gathering} {line : List Char}

theorem Gathering.All.close (all : gathering.All property) : gathering.close.All property := by
  rw [Gathering.close]
  split
  · exact all
  · next opened isOpen =>
    refine ⟨by simp, OrderedMap.nodup_keys_insert all.distinct _ _, fun entry member => ?_⟩
    rcases OrderedMap.mem_entries_insert member with rfl | old
    · exact all.current opened isOpen
    · exact all.blocks entry old

theorem Gathering.All.readTop (lasting : Lasting environment lines property)
    (all : gathering.All property) (listed : line ∈ lines) :
    (gathering.readTop environment (trim line)).All property := by
  have closed := all.close
  rw [Gathering.readTop]
  split
  · split
    · exact ⟨closed.current, closed.distinct, closed.blocks⟩
    · exact closed
  · split
    · next header isHeader =>
      refine ⟨fun opened isOpen => ?_, closed.distinct, closed.blocks⟩
      cases isOpen
      exact lasting.opened line listed header isHeader _
    · exact ⟨closed.current, closed.distinct, closed.blocks⟩

theorem OpenBlock.readIndented_all (lasting : Lasting environment lines property)
    {opened : OpenBlock} (holds : property opened.name opened.block) (listed : line ∈ lines)
    (indented : indentOf line ≠ 0) :
    property (opened.readIndented environment line).name
      (opened.readIndented environment line).block := by
  rw [OpenBlock.readIndented]
  split
  · rw [OpenBlock.name_readMember]
    rcases block_readMember environment
        { opened with indent := some (opened.indent.getD (indentOf line)) } (trim line) with
      same | ⟨member, declared, grown⟩
    · rw [same]
      exact holds
    · rw [grown]
      exact lasting.added line listed indented member declared _ _ holds
  · exact holds

theorem Gathering.All.read (lasting : Lasting environment lines property)
    (all : gathering.All property) (listed : line ∈ lines) :
    (gathering.read environment line).All property := by
  rw [Gathering.read]
  split
  · exact all
  · split
    · exact all.readTop lasting listed
    · next indented =>
      refine ⟨fun opened isOpen => ?_, all.distinct, all.blocks⟩
      obtain ⟨before, wasOpen, rfl⟩ := Option.map_eq_some_iff.1 isOpen
      exact OpenBlock.readIndented_all lasting (all.current before wasOpen) listed indented

/-- A lasting property holds of every gathered block, and one name has one block. -/
theorem Lasting.gatherBlocks (lasting : Lasting environment lines property) :
    (gatherBlocks environment lines).keys.Nodup ∧
      ∀ entry ∈ (gatherBlocks environment lines).entries, property entry.1 entry.2 := by
  have gathered : (lines.foldl (Gathering.read environment) {}).All property := by
    refine List.foldlRecOn lines _ ⟨by simp, List.nodup_nil, fun _ member =>
      absurd member List.not_mem_nil⟩ fun gathering all line listed => all.read lasting listed
  exact ⟨gathered.close.distinct, gathered.close.blocks⟩

end Gathering

/-- What holds of all members of a block still does with one more. -/
theorem Block.forall_mem_addMember {property : Member → Prop} {block : Block}
    (all : ∀ member ∈ block.members.values, property member) {added : Member}
    (isNew : property added) : ∀ member ∈ (block.addMember added).members.values, property member :=
  List.forall_mem_map.2 (OrderedMap.forall_mem_insert (List.forall_mem_map.1 all) isNew)

/-! ### Members by name -/

/-- A block keeps its members under the names of their fields, one under each. -/
structure Block.Keyed (block : Block) : Prop where
  distinct : block.members.keys.Nodup
  named : ∀ entry ∈ block.members.entries, entry.2.field.name = entry.1

theorem Block.keyed_ofHeader (header : Header) (presentation : Presentation) :
    (Block.ofHeader header presentation).Keyed :=
  ⟨List.nodup_nil, fun _ member => absurd member List.not_mem_nil⟩

theorem Block.Keyed.addMember {block : Block} (keyed : block.Keyed) (member : Member) :
    (block.addMember member).Keyed := by
  refine ⟨OrderedMap.nodup_keys_insert keyed.distinct _ _, fun entry listed => ?_⟩
  rcases OrderedMap.mem_entries_insert listed with rfl | old
  · rfl
  · exact keyed.named entry old

theorem keyed_gatherBlocks (environment : Environment) (lines : List (List Char)) :
    ∀ entry ∈ (gatherBlocks environment lines).entries, entry.2.Keyed := by
  have lasting : Lasting environment lines fun _ block => block.Keyed :=
    ⟨fun _ _ header _ presentation => Block.keyed_ofHeader header presentation,
      fun _ _ _ member _ _ _ keyed => keyed.addMember member⟩
  exact lasting.gatherBlocks.2

end Workflow.Declaration
