/-
This file holds registries that keep an index of type tags.

The index tells which model a tag stands for without going through the models. It is
kept beside the schemas, so it is made anew with every schema that comes or goes; of
models that share a tag the first one is entered.
-/

import Workflow.Registry

namespace Workflow

/-- A registry with an index of the type tags of its models. -/
structure IndexedRegistry where
  registry : Registry := {}
  /-- The qualified names of the models that tags stand for. -/
  byTag : OrderedMap String String := {}

namespace IndexedRegistry

/-- The index with one more model entered, unless its tag is there. -/
def enter (byTag : OrderedMap String String) (entry : String × Model) :
    OrderedMap String String :=
  match entry.2.typeTag with
  | some tag => if byTag.contains tag then byTag else byTag.insert tag entry.1
  | none => byTag

/-- A registry with its index made anew. -/
def reindexed (registry : Registry) : IndexedRegistry :=
  { registry := registry, byTag := registry.models.foldl enter {} }

/-- The registry with a schema under a name. -/
def register (indexed : IndexedRegistry) (name : String) (schema : Schema) : IndexedRegistry :=
  reindexed (indexed.registry.register name schema)

/-- The registry without the schema of a name, if there is one. -/
def remove (indexed : IndexedRegistry) (name : String) : Option IndexedRegistry :=
  if indexed.registry.schemas.contains name then
    some (reindexed (indexed.registry.remove name))
  else none

/-- The qualified name of the model that a document type stands for, by way of the index. -/
def resolve? (indexed : IndexedRegistry) (type : String) : Option String :=
  (indexed.registry.aliased? type).or
    ((indexed.byTag.get? type).or
      ((indexed.registry.candidates type).findSome? indexed.registry.qualified?))

end IndexedRegistry

end Workflow
