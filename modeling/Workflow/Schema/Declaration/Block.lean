/-
This file gathers the blocks of a source: its class-like declarations, each with the
members that its body declares itself.

The first indented line of a block fixes the indent of its members; lines indented
otherwise are skipped. A line that is not indented ends the block. A block declared
again under its name takes the place of the earlier one.
-/

import Workflow.Schema.Declaration.Member

namespace Workflow.Declaration

open Text

/-- A block with its own members, by name. -/
structure Block where
  parent : Option String := none
  /-- The block derives from the model base or names a parent. -/
  derivesModel : Bool := false
  presentation : Presentation := {}
  members : OrderedMap String Member := {}

/-- The block with a member added, or replaced in place. -/
def Block.addMember (block : Block) (member : Member) : Block :=
  { block with members := block.members.insert member.field.name member }

/-- The base of everything that becomes a model. -/
def modelBase : List Char := "BaseModel".toList

/-- Bases that no source declares. -/
def foreignBases : List (List Char) :=
  ["BaseModel", "object", "str", "int", "Enum", "Generic", "ABC"].map String.toList

/-- The name of a base without its type arguments. -/
def baseName (base : List Char) : List Char := trim (beforeFirst '[' base)

/-- The first base that may be declared by a source; keyword arguments are none. -/
def firstParent (bases : List Char) : Option String :=
  let named := (splitTopLevel ',' bases).filter fun base => !base.isEmpty && !base.contains '='
  ((named.map baseName).find? fun base => !foreignBases.contains base).map String.ofList

/-- Whether the model base is among the bases. -/
def hasModelBase (bases : List Char) : Bool :=
  ((splitTopLevel ',' bases).map baseName).contains modelBase

/-- The block that a header opens. -/
def Block.ofHeader (header : Header) (presentation : Presentation) : Block :=
  let parent := firstParent header.bases
  { parent := parent
    derivesModel := parent.isSome || hasModelBase header.bases
    presentation := presentation }

/-- The presentation with one argument of its decorator read. -/
def readPresentationArgument (constants : Constants) (presentation : Presentation)
    (argument : List Char) : Presentation :=
  match cutAssign argument with
  | none => presentation
  | some (key, value) =>
    match String.ofList (trim key) with
    | "title" => { presentation with title := readText constants value }
    | "description" => { presentation with description := readText constants value }
    | "icon" => { presentation with icon := readText constants value }
    | "section" => { presentation with group := readText constants value }
    | "visible" => { presentation with visible := trim value != "False".toList }
    | _ => presentation

/-- The presentation that the arguments of a decorator describe. -/
def readPresentation (constants : Constants) (arguments : List Char) : Presentation :=
  (splitTopLevel ',' arguments).foldl (readPresentationArgument constants) {}

/-- The decorator that describes the presentation of the next block. -/
def presentationDecorator : List Char := "node_info".toList

/-- The member decorators that turn the next definition into a field. -/
def accessorDecorators : List (List Char) := ["property".toList, "computed_field".toList]

/-- A block whose body is being read. -/
structure OpenBlock where
  name : String
  block : Block
  /-- The indent of members, once a member fixed it. -/
  indent : Option Nat := none
  /-- The last member line was an accessor decorator. -/
  accessorNext : Bool := false

/-- A name that starts with an underscore is private and never a field. -/
def isPrivate (name : List Char) : Bool := name.head? == some '_'

/-- The open block with one trimmed member line read. -/
def OpenBlock.readMember (environment : Environment) (opened : OpenBlock) (line : List Char) :
    OpenBlock :=
  if line.head? = some '@' then
    { opened with
      accessorNext := accessorDecorators.contains (trim (beforeFirst '(' (line.drop 1))) }
  else
    let closed := { opened with accessorNext := false }
    if line.take 4 = "def ".toList then
      if opened.accessorNext then
        match Accessor.ofLine line with
        | some accessor =>
          if isPrivate accessor.name then closed
          else { closed with block := closed.block.addMember (.ofAccessor environment accessor) }
        | none => closed
      else closed
    else
      match Stored.ofLine line with
      | some stored =>
        if isPrivate stored.name then closed
        else
          match Member.ofStored environment stored with
          | some member => { closed with block := closed.block.addMember member }
          | none => closed
      | none => closed

/-- The open block with one indented line read. -/
def OpenBlock.readIndented (environment : Environment) (opened : OpenBlock) (line : List Char) :
    OpenBlock :=
  let indent := opened.indent.getD (indentOf line)
  let fixed := { opened with indent := some indent }
  if indentOf line = indent then fixed.readMember environment (trim line) else fixed

/-- What was gathered from the declarations read so far. -/
structure Gathering where
  current : Option OpenBlock := none
  /-- The presentation for the next block. -/
  presentation : Option Presentation := none
  blocks : OrderedMap String Block := {}

/-- The gathering with its open block, if any, put among the blocks. -/
def Gathering.close (gathering : Gathering) : Gathering :=
  match gathering.current with
  | none => gathering
  | some opened =>
    { gathering with
      current := none
      blocks := gathering.blocks.insert opened.name opened.block }

/-- The gathering with one declaration read that is not indented. -/
def Gathering.readTop (environment : Environment) (gathering : Gathering) (line : List Char) :
    Gathering :=
  let closed := gathering.close
  match Decorator.ofLine line with
  | some decorator =>
    if decorator.name = presentationDecorator then
      { closed with
        presentation := some (readPresentation environment.constants decorator.arguments) }
    else closed
  | none =>
    match Header.ofLine line with
    | some header =>
      { closed with
        current := some
          { name := String.ofList header.name
            block := .ofHeader header (closed.presentation.getD {}) }
        presentation := none }
    | none => { closed with presentation := none }

/-- The gathering with one declaration read. -/
def Gathering.read (environment : Environment) (gathering : Gathering) (line : List Char) :
    Gathering :=
  if (trim line).isEmpty then gathering
  else if indentOf line = 0 then gathering.readTop environment (trim line)
  else
    { gathering with
      current := gathering.current.map fun opened => opened.readIndented environment line }

/-- The blocks of a source, by name. -/
def gatherBlocks (environment : Environment) (lines : List (List Char)) :
    OrderedMap String Block :=
  (lines.foldl (Gathering.read environment) {}).close.blocks

end Workflow.Declaration
