/-
This file writes models as JSON: field types as trees with the kind of each node as
its only key, roles and defaults under the names of their fields.
-/

import Workflow.Schema.Model

namespace Workflow

/-- A value under the name of its kind. -/
def taggedJson (kind : String) (value : Json) : Json := .object [(kind, value)]

/-- A text, or null. -/
def optionJson (text : Option String) : Json := text.elim .null .string

mutual

/-- The type as a tree. -/
def TypeExpr.toJson : TypeExpr → Json
  | .basic name => taggedJson "Basic" (.string name)
  | .optional inner => taggedJson "Optional" inner.toJson
  | .union variants => taggedJson "Union" (.array (TypeExpr.listToJson variants))
  | .list item => taggedJson "List" item.toJson
  | .dict value => taggedJson "Dict" (.string value)
  | .message payload => taggedJson "Message" payload.toJson

/-- Several types as trees. -/
def TypeExpr.listToJson : List TypeExpr → List Json
  | [] => []
  | type :: rest => type.toJson :: TypeExpr.listToJson rest

end

def Default.toJson : Default → Json
  | literal value => taggedJson "Literal" value
  | message kind value =>
    taggedJson "Message" (.object [("kind", .string kind), ("value", value)])
  | factory name => taggedJson "Factory" (.string name)
  | verbatim text => taggedJson "Opaque" (.string text)

def Presentation.toJson (presentation : Presentation) : Json :=
  .object (Object.ofList
    [("title", optionJson presentation.title), ("description", optionJson presentation.description),
      ("icon", optionJson presentation.icon), ("section", optionJson presentation.group),
      ("visible", .bool presentation.visible)])

/-- A field; title and description are left out unless there are any. -/
def Field.toJson (field : Field) : Json :=
  let optional (key : String) (text : Option String) : List (String × Json) :=
    text.elim [] fun text => [(key, .string text)]
  .object (Object.ofList (
    [("name", .string field.name), ("ty", field.type.toJson), ("raw_type", .string field.rawType),
      ("computed", .bool field.computed)] ++
    optional "title" field.title ++ optional "description" field.description))

def Model.toJson (model : Model) : Json :=
  .object (Object.ofList
    [("name", .string model.name), ("parent", optionJson model.parent),
      ("info", model.presentation.toJson), ("fields", .array (model.fields.map Field.toJson)),
      ("roles", .object (Object.ofList
        (model.roles.entries.map fun (field, role) => (field, .string role.name)))),
      ("defaults", .object (Object.ofList
        (model.defaults.entries.map fun (field, start) => (field, start.toJson))))])

end Workflow
