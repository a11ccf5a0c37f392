/-
This file reads the members of blocks: fields with their types, roles, defaults,
titles and descriptions.

A type may be wrapped as `Annotated[type, marker, …]`, whose markers name the role
or call `Field(…)`; such a call may stand after the equals sign as well. Of several
statements about one thing the last counts.
-/

import Workflow.Schema.Declaration.Bindings

namespace Workflow.Declaration

open Text

/-- What a source defines before its blocks are read. -/
abbrev Environment := Bindings

/-- What a field call may say about a field. -/
structure FieldNotes where
  title : Option String := none
  description : Option String := none
  start : Option Default := none

/-- A field of a block with its role and default. -/
structure Member where
  field : Field
  role : Role
  start : Option Default

/-- The notes with one argument of a field call read. Only the first argument may do without a
name; it is the default. -/
def FieldNotes.readArgument (constants : Constants) (notes : FieldNotes)
    (argument : List Char × Nat) : FieldNotes :=
  if argument.1.isEmpty then notes
  else
    match cutAssign argument.1 with
    | none =>
      if argument.2 = 0 then { notes with start := readDefault constants argument.1 } else notes
    | some (key, value) =>
      match String.ofList (trim key) with
      | "default" => { notes with start := readDefault constants value }
      | "default_factory" => { notes with start := some (.factory (String.ofList (trim value))) }
      | "title" => { notes with title := readText constants value }
      | "description" => { notes with description := readText constants value }
      | _ => notes

/-- The notes with the arguments of a field call read. -/
def FieldNotes.readCall (constants : Constants) (notes : FieldNotes) (arguments : List Char) :
    FieldNotes :=
  (splitTopLevel ',' arguments).zipIdx.foldl (FieldNotes.readArgument constants) notes

/-- The arguments of a text spelled `Field(…)`. -/
def fieldCall (text : List Char) : Option (List Char) :=
  match splitApplication text with
  | some (head, arguments) => if head = "Field".toList then some arguments else none
  | none => none

/-- The role and the notes with one marker of a wrapped type read. -/
def readMarker (constants : Constants) (found : Option Role × FieldNotes) (marker : List Char) :
    Option Role × FieldNotes :=
  match fieldCall marker with
  | some arguments => (found.1, found.2.readCall constants arguments)
  | none =>
    match Role.ofMarker marker with
    | some role => (some role, found.2)
    | none => found

/-- A declared type without its wrapper, with the role and the notes of the wrapper. -/
def unwrap (constants : Constants) (type : List Char) : List Char × Option Role × FieldNotes :=
  match splitSubscript type with
  | some (head, arguments) =>
    if head = "Annotated".toList then
      let parts := splitTopLevel ',' arguments
      (parts.head?.getD TypeExpr.anyName.toList,
        (parts.drop 1).foldl (readMarker constants) (none, {}))
    else (type, none, {})
  | none => (type, none, {})

/-- A field of a type as declared, with aliases expanded. -/
def declaredField (aliases : Aliases) (name type : List Char) (notes : FieldNotes) : Field :=
  { Field.ofRaw (String.ofList name) (String.ofList (expand aliases type)) with
    title := notes.title
    description := notes.description }

/-- The notes with the expression after the equals sign read. -/
def FieldNotes.readValue (constants : Constants) (notes : FieldNotes) (expression : List Char) :
    FieldNotes :=
  match fieldCall expression with
  | some arguments => notes.readCall constants arguments
  | none => { notes with start := readDefault constants expression }

/-- The member that a stored field declares; a field without a type is none. -/
def Member.ofStored (environment : Environment) (stored : Stored) : Option Member :=
  let (typePart, valuePart) :=
    match cutAssign stored.declaration with
    | some (type, value) => (trim type, some (trim value))
    | none => (trim stored.declaration, none)
  if typePart.isEmpty then none
  else
    let (type, role, typeNotes) := unwrap environment.constants typePart
    let notes := valuePart.elim typeNotes (typeNotes.readValue environment.constants)
    some
      { field := declaredField environment.aliases stored.name type notes
        role := role.getD .input
        start := notes.start }

/-- The member that an accessor declares: a computed field, an output unless marked otherwise. -/
def Member.ofAccessor (environment : Environment) (accessor : Accessor) : Member :=
  let (type, role, notes) := unwrap environment.constants accessor.type
  { field := { declaredField environment.aliases accessor.name type notes with computed := true }
    role := role.getD .output
    start := none }

end Workflow.Declaration
