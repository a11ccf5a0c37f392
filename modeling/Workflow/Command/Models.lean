/-
This file lists the models of a registry, as lines of text and as JSON.
-/

import Workflow.Json.Tree
import Workflow.Registry
import Workflow.Schema.Encoding

namespace Workflow

/-- The name of a role in listings. -/
def Role.label : Role → String
  | note => "annotation"
  | constant => "constant"
  | input => "input"
  | output => "output"
  | multiInput => "multi-input"
  | multiOutput => "multi-output"

/-- The width that labels are filled up to. -/
def labelWidth : Nat := 12

/-- A text filled up to a width with spaces. -/
def padded (width : Nat) (text : String) : String :=
  text ++ String.ofList (List.replicate (width - text.length) ' ')

/-- The line of a field: its role, name and type, and the value it starts with. -/
def Model.fieldLine (model : Model) (entry : Field × Role) : String :=
  let (field, role) := entry
  let start := (model.default? field.name).elim "" fun start => " = " ++ start.start.compact
  "  " ++ padded labelWidth role.label ++ " " ++ field.name ++ ": " ++ field.rawType ++ start ++
    "\n"

/-- The lines of a model: its name with parent and title, and its fields. -/
def Model.describe (model : Model) (qualified : String) : String :=
  let parent := model.parent.elim "" fun parent => " (" ++ parent ++ ")"
  let title := model.presentation.title.elim "" fun title => " - " ++ title
  qualified ++ parent ++ title ++ "\n" ++
    String.join (model.fieldsWithRoles.map model.fieldLine)

namespace Registry

/-- The lines of all models. -/
def describe (registry : Registry) : String :=
  String.join (registry.models.map fun (qualified, model) => model.describe qualified)

/-- All models under their qualified names. -/
def modelsJson (registry : Registry) : Json :=
  .object (Object.ofList (registry.models.map fun (qualified, model) => (qualified, model.toJson)))

end Registry

end Workflow
