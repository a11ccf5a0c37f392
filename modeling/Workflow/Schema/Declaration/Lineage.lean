/-
This file follows blocks to their ancestors and flattens them into models.

The lineage of a block runs from its root down to it; it stops at a parent that the
source does not declare and, where parents form a cycle, before the first block
that comes again. Going down the lineage, a field keeps the place where it first
appeared and takes everything else, the absence of a default included, from the
last block that declares it. Blocks become models if the root of their lineage
derives from the model base or names a parent.
-/

import Workflow.Schema.Declaration.Block

namespace Workflow.Declaration

/-- The named blocks without those of a name. -/
def without (name : String) (blocks : List (String × Block)) : List (String × Block) :=
  blocks.filter fun entry => entry.1 ≠ name

theorem length_without_lt {name : String} {blocks : List (String × Block)}
    {entry : String × Block} (found : blocks.find? (fun entry => entry.1 = name) = some entry) :
    (without name blocks).length < blocks.length := by
  refine List.length_filter_lt_length_iff_exists.2 ⟨entry, List.mem_of_find?_eq_some found, ?_⟩
  simpa using List.find?_some found

/-- Names of blocks from a name up to its root, among blocks that have not come yet. -/
def ancestry (remaining : List (String × Block)) (name : String) : List String :=
  match found : remaining.find? fun entry => entry.1 = name with
  | none => []
  | some (_, block) =>
    have := length_without_lt found
    match block.parent with
    | none => [name]
    | some parent => name :: ancestry (without name remaining) parent
termination_by remaining.length

/-- The lineage of a block, root first. -/
def lineage (blocks : OrderedMap String Block) (name : String) : List String :=
  (ancestry blocks.entries name).reverse

/-- Fields, roles and defaults merged so far. -/
structure Merged where
  fields : OrderedMap String Field := {}
  roles : OrderedMap String Role := {}
  defaults : OrderedMap String Default := {}

/-- The merged members with one more member, which replaces an inherited one of its name. -/
def Merged.add (merged : Merged) (member : Member) : Merged :=
  let name := member.field.name
  { fields := merged.fields.insert name member.field
    roles := merged.roles.insert name member.role
    defaults :=
      match member.start with
      | some start => merged.defaults.insert name start
      | none => merged.defaults.erase name }

/-- The members of blocks merged in order. -/
def mergeMembers (blocks : List Block) : Merged :=
  (blocks.flatMap fun block => block.members.values).foldl Merged.add {}

/-- The blocks of a lineage. -/
def lineageBlocks (blocks : OrderedMap String Block) (name : String) : List Block :=
  (lineage blocks name).filterMap blocks.get?

/-- The model that a block becomes, if its lineage is one of models. -/
def modelOf? (blocks : OrderedMap String Block) (name : String) (block : Block) : Option Model :=
  let line := lineageBlocks blocks name
  if line.head?.any Block.derivesModel then
    let merged := mergeMembers line
    some
      { name := name
        parent := block.parent.filter blocks.contains
        presentation := block.presentation
        fields := merged.fields.values
        roles := merged.roles
        defaults := merged.defaults }
  else none

/-- The models of a source, in the order of its blocks. -/
def resolveModels (blocks : OrderedMap String Block) : OrderedMap String Model :=
  ⟨blocks.entries.filterMap fun (name, block) =>
    (modelOf? blocks name block).map fun model => (name, model)⟩

end Workflow.Declaration
