/-
This file holds the registry: named schemas, and how the type names of documents
find models in them.

A model is known by its qualified name, schema and model joined by a dot, or by its
bare name, which stands for the first schema that has it. A document type is looked
up as an alias, as the type tag of a model, as a name, in capitalised form, and
with each conventional suffix, in this order.
-/

import Workflow.Schema.Reader
import Workflow.Text.Capital

namespace Workflow

open Text

/-- How document types find models. -/
structure Resolution where
  /-- Endings that a document type may leave out. -/
  suffixes : List String := ["Flow", "Config", "Type"]
  /-- Models of document types that are looked up first. -/
  aliases : OrderedMap String String := {}

/-- Named schemas with the way document types find their models. -/
structure Registry where
  resolution : Resolution := {}
  schemas : OrderedMap String Schema := {}

/-- The qualified name of a model. -/
def qualify (schema model : String) : String := schema ++ "." ++ model

/-- A name before and after its last dot. -/
def splitQualified (name : String) : Option (String × String) :=
  (cutLast '.' name.toList).map fun (schema, model) => (String.ofList schema, String.ofList model)

/-- The characters that separate the words of a document type. -/
def separatesWords (c : Char) : Bool := c == '_' || c == '-' || c == ' '

/-- A word with a capital first letter. -/
def capitalized : List Char → List Char
  | [] => []
  | c :: rest => capital c ++ rest

/-- The words of a name, capitalised and joined. -/
def capitalizedName (name : String) : String :=
  String.ofList ((splitAll separatesWords name.toList).flatMap capitalized)

namespace Registry

/-- The registry with a schema under a name; one registered again keeps its place. -/
def register (registry : Registry) (name : String) (schema : Schema) : Registry :=
  { registry with schemas := registry.schemas.insert name schema }

/-- The registry without the schema of a name. -/
def remove (registry : Registry) (name : String) : Registry :=
  { registry with schemas := registry.schemas.erase name }

/-- All models with their qualified names, in order of registration. -/
def models (registry : Registry) : List (String × Model) :=
  registry.schemas.entries.flatMap fun (name, schema) =>
    schema.models.values.map fun model => (qualify name model.name, model)

/-- The model of a schema, both given by name. -/
def modelIn? (registry : Registry) (schema model : String) : Option Model :=
  (registry.schemas.get? schema).bind fun found => found.model? model

/-- The qualified name of a model given by its qualified or its bare name. -/
def qualified? (registry : Registry) (reference : String) : Option String :=
  let isQualified :=
    (splitQualified reference).any fun (schema, model) => (registry.modelIn? schema model).isSome
  if isQualified then some reference
  else
    (registry.schemas.entries.find? fun entry => (entry.2.model? reference).isSome).map
      fun entry => qualify entry.1 reference

/-- The model of a qualified or bare name. -/
def model? (registry : Registry) (reference : String) : Option Model :=
  ((registry.qualified? reference).bind splitQualified).bind fun (schema, model) =>
    registry.modelIn? schema model

/-- The qualified name of the first model with a type tag. -/
def tagged? (registry : Registry) (tag : String) : Option String :=
  (registry.models.find? fun entry => entry.2.typeTag = some tag).map (·.1)

/-- The names under which a document type is looked up once alias and tag have failed. -/
def candidates (registry : Registry) (type : String) : List String :=
  let capitals := capitalizedName type
  [type, capitals] ++
    registry.resolution.suffixes.flatMap fun suffix => [capitals ++ suffix, type ++ suffix]

/-- The qualified name of the model that an alias of a document type leads to. -/
def aliased? (registry : Registry) (type : String) : Option String :=
  (registry.resolution.aliases.get? type).bind registry.qualified?

/-- The qualified name of the model that a document type stands for. -/
def resolve? (registry : Registry) (type : String) : Option String :=
  (registry.aliased? type).or
    ((registry.tagged? type).or ((registry.candidates type).findSome? registry.qualified?))

end Registry

end Workflow
