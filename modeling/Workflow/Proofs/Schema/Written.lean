/-
This file says how declarations are written and what they declare.

A written class names itself, a base and its fields; a written field names its type, its
role and perhaps a literal that it starts with. A written source lists classes in such
an order that a base comes before the classes that derive from it. Each of these comes
with what makes it well formed, so every written source is a source to be read.

A class has the fields of its base, in their order and with the overridden ones
replaced in place, and then its own.
-/

import Workflow.Proofs.Text.Word
import Workflow.Schema.Reader

namespace Workflow

open Text

/-! ### Parts of declarations -/

/-- The text of a type: one line, trimmed, with its literals closed and its brackets matched,
without a comma outside brackets and without a comment. -/
structure WrittenType where
  chars : List Char
  nonempty : chars ≠ []
  trimmed : trim chars = chars
  oneLine : '\n' ∉ chars
  closed : Scan.start.run chars = .start
  matched : ∀ entry ∈ marked .start chars, ∀ depth ∈ entry.2, 0 ≤ depth
  undivided : (',', some 0) ∉ marked .start chars
  uncommented : ∀ entry ∈ marked .start chars, entry.1 = '#' → entry.2 = none

/-- The two ways to write the words for null and the truth values. -/
inductive Wording where
  | capital
  | small

/-- A value that a field may start with. -/
inductive Literal where
  | null (wording : Wording)
  | bool (wording : Wording) (value : Bool)
  | int (value : Int64)
  | text (quote : Quote) (content : String)
  | list
  | object

namespace Literal

/-- The value itself. -/
def value : Literal → Json
  | null _ => .null
  | bool _ value => .bool value
  | int value => .int value.toInt
  | text _ content => .string content
  | list => .array []
  | object => .object []

/-- The characters of a literal. -/
def chars : Literal → List Char
  | null .capital => "None".toList
  | null .small => "null".toList
  | bool .capital value => (if value then "True" else "False").toList
  | bool .small value => (if value then "true" else "false").toList
  | int value => (Number.Numeral.ofInt value.toInt).chars
  | text quote content => quote.literal content.toList
  | list => "[]".toList
  | object => "\x7b\x7d".toList

end Literal

/-- A field of a class; its name does not start with an underscore. -/
structure WrittenField where
  name : String
  named : isIdentifier name.toList = true
  shown : Declaration.isPrivate name.toList = false
  type : WrittenType
  role : Role
  start : Option Literal

/-- A class with its base, if that is a class, and the indent of its fields. -/
structure WrittenClass where
  name : String
  named : isIdentifier name.toList = true
  native : name.toList ∉ Declaration.foreignBases
  base : Option String
  indent : List Char
  indented : indent ≠ []
  blank : ∀ c ∈ indent, isBlank c = true ∧ c ≠ '\n'
  fields : List WrittenField
  distinct : (fields.map WrittenField.name).Nodup

/-- Classes of different names, each after its base. -/
structure WrittenSource where
  classes : List WrittenClass
  distinct : (classes.map WrittenClass.name).Nodup
  based : ∀ before declared after, classes = before ++ declared :: after →
    ∀ base ∈ declared.base, base ∈ before.map WrittenClass.name

/-! ### Text -/

/-- The word that opens the header of a class. -/
def classWord : List Char := "class".toList

/-- The word for a type with a marker. -/
def wrapperWord : List Char := "Annotated".toList

/-- The marker of a role. -/
def Role.marker : Role → List Char
  | note => "FieldRole.ANNOTATION".toList
  | constant => "FieldRole.CONSTANT".toList
  | input => "FieldRole.INPUT".toList
  | output => "FieldRole.OUTPUT".toList
  | multiInput => "FieldRole.MULTI_INPUT".toList
  | multiOutput => "FieldRole.MULTI_OUTPUT".toList

namespace WrittenField

/-- The type of a field and the marker of its role. -/
def arguments (field : WrittenField) : List Char :=
  field.type.chars ++ ',' :: ' ' :: field.role.marker

/-- The type of a field wrapped up with the marker of its role. -/
def wrapped (field : WrittenField) : List Char := wrapperWord ++ bracketed field.arguments

/-- The declaration of a field behind its name and the colon. -/
def declaration (field : WrittenField) : List Char :=
  field.wrapped ++ field.start.elim [] fun literal => ' ' :: '=' :: ' ' :: literal.chars

/-- The line of a field without its indent. -/
def chars (field : WrittenField) : List Char :=
  field.name.toList ++ ':' :: ' ' :: field.declaration

end WrittenField

namespace WrittenClass

/-- The bases of a class. -/
def bases (declared : WrittenClass) : List Char :=
  declared.base.elim Declaration.modelBase String.toList

/-- The name of a class with its bases in parentheses. -/
def call (declared : WrittenClass) : List Char :=
  declared.name.toList ++ '(' :: (declared.bases ++ [')'])

/-- The line that opens a class. -/
def header (declared : WrittenClass) : List Char := classWord ++ ' ' :: (declared.call ++ [':'])

/-- The lines of a class. -/
def lines (declared : WrittenClass) : List (List Char) :=
  declared.header :: declared.fields.map fun field => declared.indent ++ field.chars

end WrittenClass

namespace WrittenSource

def lines (source : WrittenSource) : List (List Char) := source.classes.flatMap WrittenClass.lines

/-- The text of a source: every line with its end. -/
def text (source : WrittenSource) : String :=
  String.ofList (source.lines.flatMap fun line => line ++ ['\n'])

end WrittenSource

/-! ### Meaning -/

namespace WrittenField

/-- The field of a model that a written field declares: its type is kept as it is written. -/
def field (field : WrittenField) : Field where
  name := field.name
  type := TypeExpr.parse (String.ofList field.type.chars)
  rawType := String.ofList field.type.chars
  title := none
  description := none
  computed := false

/-- The default of the field. -/
def default? (field : WrittenField) : Option Default :=
  field.start.map fun literal => .literal literal.value

end WrittenField

/-- The first field of a name. -/
def fieldNamed? (fields : List WrittenField) (name : String) : Option WrittenField :=
  fields.find? fun field => field.name = name

/-- The field that a class has in the place of an inherited one: its own of that name, if any. -/
def override (own : List WrittenField) (inherited : WrittenField) : WrittenField :=
  (fieldNamed? own inherited.name).getD inherited

/-- Inherited fields, overridden in place, and then the others of a class itself. -/
def overlay (inherited own : List WrittenField) : List WrittenField :=
  inherited.map (override own) ++
    own.filter fun field => field.name ∉ inherited.map WrittenField.name

/-- Classes with all their fields. -/
abbrev Flattened := List (WrittenClass × List WrittenField)

/-- The fields that a class has from its base. -/
def inherited (known : Flattened) (base : Option String) : List WrittenField :=
  ((base.bind fun name => known.find? fun entry => entry.1.name = name).map Prod.snd).getD []

/-- The classes with all their fields, the inherited ones included. -/
def flatten (classes : List WrittenClass) : Flattened :=
  classes.foldl (fun known declared =>
    known ++ [(declared, overlay (inherited known declared.base) declared.fields)]) []

/-- A model is what a class with these fields declares. -/
structure Model.Declares (model : Model) (declared : WrittenClass) (all : List WrittenField) :
    Prop where
  name : model.name = declared.name
  parent : model.parent = declared.base
  presentation : model.presentation = {}
  fields : model.fields = all.map WrittenField.field
  role? : ∀ name, model.role? name = (fieldNamed? all name).map WrittenField.role
  default? : ∀ name, model.default? name = (fieldNamed? all name).bind WrittenField.default?

end Workflow
