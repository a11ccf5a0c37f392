/-
This file proves which classes of a source are registered as models.

A class records one base: the first that a source may declare. Following recorded bases
from class to class leads to a root, or in a circle. A class is registered unless its root
is plain: declared without a base that a source may declare, and without the model base.
The bases that are not recorded count for nothing unless their class is the root, so a
class that lists the model base behind a plain class is not registered.
-/

import Mathlib.Logic.Relation
import Workflow.Proofs.Schema.Merging

namespace Workflow

open Text Declaration

namespace Declaration

/-! ### Headers of blocks -/

/-- The header on a line, if it has one at the top of a source. -/
def headerOn? (line : List Char) : Option Header :=
  if indentOf line = 0 then Header.ofLine (trim line) else none

/-- The last header under a name. -/
def lastHeader? (lines : List (List Char)) (name : String) : Option Header :=
  (lines.filterMap headerOn?).reverse.find? fun header => String.ofList header.name = name

theorem lastHeader?_append (before after : List (List Char)) (name : String) :
    lastHeader? (before ++ after) name = (lastHeader? after name).or (lastHeader? before name) := by
  rw [lastHeader?, List.filterMap_append, List.reverse_append, List.find?_append]
  rfl

theorem lastHeader?_singleton (line : List Char) (name : String) :
    lastHeader? [line] name =
      (headerOn? line).filter fun header => String.ofList header.name = name := by
  rw [lastHeader?]
  cases shown : headerOn? line with
  | none => rw [List.filterMap_cons_none shown]; rfl
  | some header =>
    rw [List.filterMap_cons_some shown, List.filterMap_nil, List.reverse_singleton,
      List.find?_singleton, Option.filter_some]

/-- A decorator is no header. -/
theorem ofLine_of_decorator {line : List Char} {decorator : Decorator}
    (decorated : Decorator.ofLine line = some decorator) : Header.ofLine line = none := by
  obtain ⟨rest, rfl⟩ : ∃ rest, line = '@' :: rest := by
    unfold Decorator.ofLine at decorated
    split at decorated
    · exact ⟨_, rfl⟩
    · cases decorated
  have keyword (body : List Char) (isBody : beforeFinalColon ('@' :: rest) = some body) :
      afterKeyword "class".toList body = none := by
    rw [beforeFinalColon] at isBody
    split at isBody
    · cases isBody
      cases rest <;> rfl
    · cases isBody
  rw [Header.ofLine]
  cases isBody : beforeFinalColon ('@' :: rest) with
  | none => rfl
  | some body => rw [Option.bind_eq_bind, Option.bind_some, keyword body isBody]; rfl

/-- What a block has from its header: the recorded base, and whether it may be the root of
models. -/
def Block.origin (block : Block) : Option String × Bool := (block.parent, block.derivesModel)

/-- What a header gives to its block. -/
def Header.origin (header : Header) : Option String × Bool := (Block.ofHeader header {}).origin

theorem OpenBlock.name_readIndented (environment : Environment) (opened : OpenBlock)
    (line : List Char) : (opened.readIndented environment line).name = opened.name := by
  rw [readIndented]
  split
  · exact name_readMember environment _ (trim line)
  · rfl

/-- The lines of a body leave what its block has from the header. -/
theorem OpenBlock.origin_readIndented (environment : Environment) (opened : OpenBlock)
    (line : List Char) :
    (opened.readIndented environment line).block.origin = opened.block.origin := by
  rw [readIndented]
  split
  · rcases block_readMember environment
        { opened with indent := some (opened.indent.getD (indentOf line)) } (trim line) with
      same | ⟨member, -, grown⟩
    · rw [same]
    · rw [grown]
      rfl
  · rfl

namespace Gathering

/-- What the block of a name would have from its header if no line followed. -/
def origin? (gathering : Gathering) (name : String) : Option (Option String × Bool) :=
  (gathering.close.blocks.get? name).map Block.origin

theorem origin?_eq (gathering : Gathering) (name : String) :
    gathering.origin? name =
      ((gathering.current.filter fun opened => opened.name = name).map fun opened =>
        opened.block.origin).or ((gathering.blocks.get? name).map Block.origin) := by
  rw [origin?, close]
  cases gathering.current with
  | none => rfl
  | some opened =>
    dsimp only
    rw [OrderedMap.get?_insert, Option.filter_some]
    by_cases same : opened.name = name
    · simp [same]
    · simp [same]

variable {environment : Environment} {gathering : Gathering} {line : List Char}

/-- What stands for a name is the same whether its block is open or closed, and whatever the
presentation of the next block. -/
theorem origin?_close (presentation : Option Presentation) (name : String) :
    ({ gathering.close with presentation := presentation } : Gathering).origin? name =
      gathering.origin? name := by
  have closed : gathering.close.current = none := by
    rw [close]
    split
    · next closed => exact closed
    · rfl
  rw [origin?_eq]
  dsimp only
  rw [closed]
  rfl

theorem origin?_readTop (name : String) :
    (gathering.readTop environment line).origin? name =
      (((Header.ofLine line).filter fun header => String.ofList header.name = name).map
        Header.origin).or (gathering.origin? name) := by
  rw [readTop]
  split
  · next decorator decorated =>
    rw [ofLine_of_decorator decorated, Option.filter_none, Option.map_none, Option.none_or]
    split <;> exact origin?_close _ name
  · split
    · next header isHeader =>
      rw [isHeader, origin?_eq, Option.filter_some, Option.filter_some]
      split <;> rfl
    · next unheaded =>
      rw [unheaded, Option.filter_none, Option.map_none, Option.none_or]
      exact origin?_close none name

/-- A line changes what stands for a name only if it is a header under that name. -/
theorem origin?_read (name : String) :
    (gathering.read environment line).origin? name =
      ((lastHeader? [line] name).map Header.origin).or (gathering.origin? name) := by
  rw [lastHeader?_singleton, read]
  split
  · next blank =>
    have unheaded : headerOn? line = none := by
      rw [headerOn?, List.isEmpty_iff.1 blank]
      exact ite_self none
    rw [unheaded]
    rfl
  · split
    · next flat => rw [origin?_readTop, headerOn?, if_pos flat]
    · next indented =>
      rw [headerOn?, if_neg indented, Option.filter_none, Option.map_none, Option.none_or,
        origin?_eq, origin?_eq]
      cases gathering.current with
      | none => rfl
      | some opened =>
        rw [Option.map_some, Option.filter_some, Option.filter_some,
          OpenBlock.name_readIndented]
        split
        · rw [Option.map_some, Option.map_some, OpenBlock.origin_readIndented]
        · rfl

end Gathering

/-- A block has what its last header gives. -/
theorem origin_gatherBlocks (environment : Environment) (lines : List (List Char)) (name : String) :
    ((gatherBlocks environment lines).get? name).map Block.origin =
      (lastHeader? lines name).map Header.origin := by
  show (lines.foldl (Gathering.read environment) {}).origin? name = _
  induction lines using List.reverseRecOn with
  | nil => rfl
  | append_singleton before line inductionHypothesis =>
    rw [List.foldl_concat, Gathering.origin?_read, inductionHypothesis, lastHeader?_append,
      Option.map_or]

/-! ### Roots of lineages -/

/-- Down a chain every place but the first has one before it. -/
theorem exists_before_of_isChain {Place : Type} {related : Place → Place → Prop}
    {line : List Place} (chain : line.IsChain related) {place : Place} (member : place ∈ line) :
    line.head? = some place ∨ ∃ before ∈ line, related before place := by
  obtain ⟨front, after, rfl⟩ := List.append_of_mem member
  rcases List.eq_nil_or_concat front with rfl | ⟨front, before, rfl⟩
  · exact Or.inl rfl
  · rw [List.concat_eq_append] at chain ⊢
    rw [List.append_assoc] at chain
    refine Or.inr ⟨before, by simp, ?_⟩
    exact (List.isChain_append_cons_cons.1 chain).2.1

/-- The parents of blocks, one after the other. -/
def Reaches (blocks : OrderedMap String Block) : String → String → Prop :=
  Relation.ReflTransGen fun name parent => parent? blocks name = some parent

section IsLineage

variable {blocks : OrderedMap String Block} {name root : String} {line : List String}
  (isLineage : IsLineage blocks name line)
include isLineage

theorem IsLineage.reaches (isRoot : line.head? = some root) : Reaches blocks name root := by
  obtain ⟨others, rfl⟩ := List.head?_eq_some_iff.1 isRoot
  exact isLineage.along.induction (Reaches blocks · root) _
    (fun _ _ isParent reaches => .head isParent reaches) (fun _ => .refl) name
    (List.mem_of_getLast? isLineage.last)

/-- All declared ancestors are in the line. -/
theorem IsLineage.mem_of_reaches {ancestor : String} (reaches : Reaches blocks name ancestor)
    (declared : ancestor ∈ blocks.keys) : ancestor ∈ line := by
  induction reaches with
  | refl => exact List.mem_of_getLast? isLineage.last
  | @tail child parent _ isParent inductionHypothesis =>
    have childDeclared : child ∈ blocks.keys := by
      obtain ⟨block, found, -⟩ := Option.bind_eq_some_iff.1 isParent
      exact OrderedMap.mem_keys_iff.2 ⟨block, found⟩
    rcases exists_before_of_isChain isLineage.along (inductionHypothesis childDeclared) with
      isRoot | ⟨before, inLine, isBefore⟩
    · exact isLineage.whole child isRoot parent isParent declared
    · exact Option.some.inj (isBefore.symm.trans isParent) ▸ inLine

/-- A declared ancestor without a parent is the root. -/
theorem IsLineage.head?_of_reaches (reaches : Reaches blocks name root)
    (declared : root ∈ blocks.keys) (orphan : parent? blocks root = none) :
    line.head? = some root := by
  rcases exists_before_of_isChain isLineage.along (isLineage.mem_of_reaches reaches declared) with
    isRoot | ⟨before, -, isBefore⟩
  · exact isRoot
  · cases orphan.symm.trans isBefore

end IsLineage

/-- A block is plain: it names no parent and does not derive from the model base. -/
def Block.IsPlain (block : Block) : Prop := block.parent = none ∧ block.derivesModel = false

/-- The blocks of a lineage start with the block of its root. -/
theorem exists_root {blocks : OrderedMap String Block} {name : String}
    (listed : name ∈ blocks.keys) :
    ∃ root block, (lineage blocks name).head? = some root ∧ blocks.get? root = some block ∧
      (lineageBlocks blocks name).head? = some block := by
  have isLineage := isLineage_lineage listed
  rw [lineageBlocks]
  cases isLine : lineage blocks name with
  | nil => cases isLine ▸ isLineage.last
  | cons root others =>
    have declared : root ∈ blocks.keys := isLineage.declared (isLine ▸ List.mem_cons_self)
    obtain ⟨block, found⟩ := OrderedMap.mem_keys_iff.1 declared
    exact ⟨root, block, rfl, found, by rw [List.filterMap_cons_some found]; rfl⟩

theorem mem_keys_resolveModels {blocks : OrderedMap String Block} {name : String} :
    name ∈ (resolveModels blocks).keys ↔
      name ∈ blocks.keys ∧ (lineageBlocks blocks name).head?.any Block.derivesModel = true := by
  simp only [resolveModels, OrderedMap.keys, List.mem_map, List.mem_filterMap,
    Option.map_eq_some_iff, modelOf?, Option.ite_none_right_eq_some]
  constructor
  · rintro ⟨_, ⟨⟨other, block⟩, listed, model, ⟨derives, -⟩, rfl⟩, rfl⟩
    exact ⟨⟨_, listed, rfl⟩, derives⟩
  · rintro ⟨⟨⟨other, block⟩, listed, rfl⟩, derives⟩
    exact ⟨_, ⟨_, listed, _, ⟨derives, rfl⟩, rfl⟩, rfl⟩

/-- Blocks become models unless a plain block is the root of their lineage. -/
theorem mem_keys_resolveModels_iff {blocks : OrderedMap String Block} {name : String}
    (derived : ∀ name block, blocks.get? name = some block → block.derivesModel = false →
      block.parent = none) :
    name ∈ (resolveModels blocks).keys ↔ name ∈ blocks.keys ∧
      ∀ root, Reaches blocks name root → ¬∃ block ∈ blocks.get? root, block.IsPlain := by
  rw [mem_keys_resolveModels]
  refine and_congr_right fun listed => ?_
  have isLineage := isLineage_lineage listed
  obtain ⟨root, block, isRoot, found, isFirst⟩ := exists_root listed
  rw [isFirst]
  constructor
  · rintro derives other reaches ⟨plain, isPlain, orphan, underived⟩
    have noParent : parent? blocks other = none := by
      rw [parent?, isPlain]
      exact orphan
    have same := isLineage.head?_of_reaches reaches
      (OrderedMap.mem_keys_iff.2 ⟨plain, isPlain⟩) noParent
    obtain rfl : root = other := Option.some.inj (isRoot.symm.trans same)
    obtain rfl : block = plain := Option.some.inj (found.symm.trans isPlain)
    exact Bool.false_ne_true (underived.symm.trans derives)
  · intro proper
    by_contra underived
    have underived : block.derivesModel = false := Bool.eq_false_iff.2 underived
    exact proper root (isLineage.reaches isRoot)
      ⟨block, found, derived root block found underived, underived⟩

end Declaration

/-! ### Registered classes -/

/-- The last header of a class in a source. -/
def sourceHeader? (source name : String) : Option Header :=
  lastHeader? (logicalLines source.toList) name

/-- The recorded base of a class: the first that a source may declare. -/
def recordedBase? (source name : String) : Option String :=
  (sourceHeader? source name).bind fun header => firstParent header.bases

/-- One class leads to another along recorded bases. -/
def Leads (source : String) : String → String → Prop :=
  Relation.ReflTransGen fun name base => recordedBase? source name = some base

/-- A class lists the model base, at any place among its bases. -/
def ListsModelBase (source name : String) : Prop :=
  ∃ header ∈ sourceHeader? source name, hasModelBase header.bases = true

/-- A class is plain: it has no base that a source may declare, and not the model base. -/
def IsPlain (source name : String) : Prop :=
  ∃ header ∈ sourceHeader? source name,
    firstParent header.bases = none ∧ hasModelBase header.bases = false

section Registered

variable {source name base root : String}

theorem origin_sourceBlocks (source name : String) :
    ((sourceBlocks source).get? name).map Block.origin =
      (sourceHeader? source name).map Header.origin :=
  origin_gatherBlocks ..

theorem parent?_sourceBlocks (source name : String) :
    parent? (sourceBlocks source) name = recordedBase? source name := by
  have same : (((sourceBlocks source).get? name).map Block.origin).bind Prod.fst =
      ((sourceHeader? source name).map Header.origin).bind Prod.fst :=
    congrArg (Option.bind · Prod.fst) (origin_sourceBlocks source name)
  rwa [Option.bind_map, Option.bind_map] at same

theorem mem_keys_sourceBlocks :
    name ∈ (sourceBlocks source).keys ↔ (sourceHeader? source name).isSome = true := by
  rw [OrderedMap.mem_keys_iff, ← Option.isSome_iff_exists, ← Option.isSome_map (f := Block.origin),
    origin_sourceBlocks, Option.isSome_map]

/-- The block of a class is plain if the class is. -/
theorem isPlain_sourceBlocks :
    (∃ block ∈ (sourceBlocks source).get? name, block.IsPlain) ↔ IsPlain source name := by
  calc (∃ block ∈ (sourceBlocks source).get? name, block.IsPlain)
      ↔ ((sourceBlocks source).get? name).map Block.origin = some (none, false) := by
        simp [Block.IsPlain, Block.origin]
    _ ↔ (sourceHeader? source name).map Header.origin = some (none, false) := by
        rw [origin_sourceBlocks]
    _ ↔ IsPlain source name := by
        refine Option.map_eq_some_iff.trans (exists_congr fun header => and_congr_right fun _ => ?_)
        show ((firstParent header.bases,
          (firstParent header.bases).isSome || hasModelBase header.bases) = (none, false)) ↔ _
        rw [Prod.mk.injEq]
        refine and_congr_right fun orphan => ?_
        rw [orphan]
        rfl

theorem leads_eq_reaches (source : String) : Leads source = Reaches (sourceBlocks source) := by
  unfold Leads Reaches
  simp only [parent?_sourceBlocks]

/-- A class is registered unless it leads to a plain class. -/
theorem mem_keys_models_iff : name ∈ (Schema.parse source).models.keys ↔
    (sourceHeader? source name).isSome = true ∧
      ∀ root, Leads source name root → ¬IsPlain source root := by
  have derived : ∀ name block, (sourceBlocks source).get? name = some block →
      block.derivesModel = false → block.parent = none := by
    intro name block found underived
    have origin := origin_sourceBlocks source name
    rw [found] at origin
    obtain ⟨header, -, same⟩ := Option.map_eq_some_iff.1 origin.symm
    obtain ⟨isParent, derives⟩ := Prod.mk.inj same
    have neither : ((firstParent header.bases).isSome || hasModelBase header.bases) = false :=
      derives.trans underived
    have orphan := Option.isSome_eq_false_iff.1 (Bool.or_eq_false_iff.1 neither).1
    exact isParent.symm.trans (Option.isNone_iff_eq_none.1 orphan)
  show name ∈ (resolveModels (sourceBlocks source)).keys ↔ _
  rw [mem_keys_resolveModels_iff derived, mem_keys_sourceBlocks, leads_eq_reaches]
  simp only [isPlain_sourceBlocks]

end Registered

/-- Which classes of a source are registered as models: those that do not lead to a plain class.
So a class that lists the model base, and every class that leads to it, is registered exactly if
the recorded bases above it lead to no plain class. -/
theorem registered_parse (source : String) :
    (∀ name, name ∈ (Schema.parse source).models.keys ↔
      (sourceHeader? source name).isSome = true ∧
        ∀ root, Leads source name root → ¬IsPlain source root) ∧
    ∀ name base, Leads source name base → ListsModelBase source base →
      (name ∈ (Schema.parse source).models.keys ↔
        ∀ root, Leads source base root → ¬IsPlain source root) := by
  refine ⟨fun name => mem_keys_models_iff, fun name base leads lists => ?_⟩
  obtain ⟨header, isHeader, listed⟩ := lists
  rw [mem_keys_models_iff]
  constructor
  · rintro ⟨-, proper⟩ root above
    exact proper root (leads.trans above)
  · intro proper
    refine ⟨?_, fun root above plain => ?_⟩
    · rcases leads.cases_head with rfl | ⟨next, isNext, -⟩
      · exact Option.isSome_of_mem isHeader
      · obtain ⟨own, isOwn, -⟩ := Option.bind_eq_some_iff.1 isNext
        exact Option.isSome_of_mem isOwn
    · have unique : Relator.RightUnique fun name base => recordedBase? source name = some base :=
        fun _ _ _ first second => Option.some.inj (first.symm.trans second)
      rcases leads.total_of_right_unique unique above with further | back
      · exact proper root further plain
      -- A plain class is the last of its line, so it would have to list the model base.
      · obtain ⟨last, isLast, orphan, unlisted⟩ := plain
        rcases back.cases_head with rfl | ⟨next, isNext, -⟩
        · obtain rfl : header = last := Option.some.inj (isHeader.symm.trans isLast)
          exact Bool.false_ne_true (unlisted.symm.trans listed)
        · rw [recordedBase?, isLast, Option.bind_some, orphan] at isNext
          cases isNext

/-- A class that lists the model base behind a base that is not declared is registered, and so is
one that derives from it. -/
theorem registered_foreignMixin :
    let source := "class Node(Mixin, BaseModel):\n    y: int\nclass Leaf(Node):\n    z: int\n"
    "Leaf" ∈ (Schema.parse source).models.keys ∧ Leads source "Leaf" "Node" ∧
      ∀ root, Leads source "Node" root → ¬IsPlain source root := by
  intro source
  have registered : "Leaf" ∈ (Schema.parse source).models.keys := by decide +kernel
  have leads : Leads source "Leaf" "Node" := .single (by decide +kernel)
  have lists : ListsModelBase source "Node" := by
    unfold ListsModelBase
    decide +kernel
  exact ⟨registered, leads, ((registered_parse source).2 "Leaf" "Node" leads lists).1 registered⟩

/-- A class that lists the model base behind a plain class is not registered. -/
theorem registered_plainMixin :
    let source := "class Mixin:\n    pass\nclass Node(Mixin, BaseModel):\n    y: int\n"
    ListsModelBase source "Node" ∧ "Node" ∉ (Schema.parse source).models.keys := by
  intro source
  refine ⟨?_, by decide +kernel⟩
  unfold ListsModelBase
  decide +kernel

end Workflow
