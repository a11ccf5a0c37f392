/-
This file holds models: the flattened declarations that nodes are made from.

A model lists its fields in order and keeps, under the name of each field, its role
and its default. A schema is what one source declares: models, constants and type
aliases, each in the order of declaration.
-/

import Workflow.Json.Basic
import Workflow.OrderedMap
import Workflow.Schema.Role
import Workflow.Schema.TypeExpr

namespace Workflow

/-- The value a field starts with. -/
inductive Default where
  /-- A value written out. -/
  | literal (value : Json)
  /-- A message of a kind around a value. -/
  | message (kind : String) (value : Json)
  /-- The name of what makes the value when a node is created. -/
  | factory (name : String)
  /-- An expression that is not understood, word for word. -/
  | verbatim (text : String)

namespace Default

/-- The value a fresh node starts with; a factory has none before it runs. -/
def start : Default → Json
  | literal value => value
  | message kind value => .object [("type", .string kind), ("value", value)]
  | factory _ => .null
  | verbatim text => .string text

/-- The text of a literal string. -/
def text? : Default → Option String
  | literal value => value.text?
  | _ => none

end Default

/-- One declared field. -/
structure Field where
  name : String
  type : TypeExpr
  rawType : String
  title : Option String := none
  description : Option String := none
  /-- Declared as an accessor rather than a stored field. -/
  computed : Bool := false

namespace Field

/-- A field of a type given as text. -/
def ofRaw (name rawType : String) : Field :=
  { name := name, type := TypeExpr.parse rawType, rawType := rawType }

/-- The title, or else the name. -/
def displayName (field : Field) : String := field.title.getD field.name

end Field

/-- How a model is presented. -/
structure Presentation where
  title : Option String := none
  description : Option String := none
  icon : Option String := none
  group : Option String := none
  visible : Bool := true

/-- A model with its inherited fields, roles and defaults. -/
structure Model where
  name : String
  /-- The parent, if the same source declares it. -/
  parent : Option String := none
  presentation : Presentation := {}
  fields : List Field := []
  roles : OrderedMap String Role := {}
  defaults : OrderedMap String Default := {}

/-- The constant that carries the type tag of documents. -/
def typeTagField : String := "type"

namespace Model

/-- The model with one more field at the end. -/
def withField (model : Model) (field : Field) (role : Role) (start : Option Default) : Model :=
  { model with
    defaults := start.elim model.defaults (model.defaults.insert field.name)
    roles := model.roles.insert field.name role
    fields := model.fields ++ [field] }

/-- The first field of a name. -/
def field? (model : Model) (name : String) : Option Field :=
  model.fields.find? fun field => field.name == name

/-- The role of a field. -/
def role? (model : Model) (name : String) : Option Role := model.roles.get? name

/-- The default of a field. -/
def default? (model : Model) (name : String) : Option Default := model.defaults.get? name

/-- The fields with their roles, in order. -/
def fieldsWithRoles (model : Model) : List (Field × Role) :=
  model.fields.map fun field => (field, (model.role? field.name).getD .input)

/-- The type tag of documents: the text that the constant `type` starts with. -/
def typeTag (model : Model) : Option String :=
  if model.role? typeTagField = some .constant then
    (model.default? typeTagField).bind Default.text?
  else none

end Model

/-- Everything one source declares. -/
structure Schema where
  models : OrderedMap String Model := {}
  constants : OrderedMap String Default := {}
  aliases : OrderedMap String String := {}

/-- A model of a schema. -/
def Schema.model? (schema : Schema) (name : String) : Option Model := schema.models.get? name

end Workflow
