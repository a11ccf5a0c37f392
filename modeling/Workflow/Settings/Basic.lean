/-
This file holds the settings of the tool: the schemas it loads, how document types
are resolved, and how documents are read and written.
-/

import Workflow.Document.Import
import Workflow.Files

namespace Workflow

/-- The newest version of settings files that is understood. -/
def settingsVersion : Nat := 1

/-- The settings file that is looked for when no other is named. -/
def settingsFileName : String := "nodeweave.ron"

/-- The name of a schema whose path gives it none. -/
def unnamedSchema : String := "schema"

/-- The name that a schema takes from its path. -/
def schemaName (path : String) : String :=
  (fileName? path).elim unnamedSchema fun name => String.ofList (withoutExtension name)

/-- A schema to load. -/
structure SchemaEntry where
  name : Option String := none
  path : String

/-- The name under which a schema is registered: its own, or else that of its path. -/
def SchemaEntry.registryName (entry : SchemaEntry) : String :=
  entry.name.getD (schemaName entry.path)

/-- The settings of the tool. -/
structure Settings where
  version : Nat := settingsVersion
  schemas : List SchemaEntry := []
  resolution : Resolution := {}
  importing : ImportOptions := {}
  /-- Places and sizes are written to documents. -/
  exportLayout : Bool := true

end Workflow
