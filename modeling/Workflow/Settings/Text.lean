/-
This file writes settings. All members are written, records with their names, and
numbers without an exponent.
-/

import Workflow.Settings.Basic
import Workflow.Term.Pretty

namespace Workflow

open Number Term

/-- Distances are written in full. -/
def distanceLayout : Layout := ⟨-64, 64⟩

/-- A distance as written. -/
def distanceTerm : Single → Term
  | .finite value => .numeral (distanceLayout.numeralOf single value).chars
  | .infinite negative => if negative then .numeral "-inf".toList else .word "inf"
  | .undefined => .word "NaN"

def naturalTerm (n : Nat) : Term := .numeral (decimalDigits n)

/-- An optional value as written. -/
def optionTerm {Value : Type} (write : Value → Term) (value : Option Value) : Term :=
  value.elim absent fun value => present .faithful (write value)

def SchemaEntry.term (entry : SchemaEntry) : Term :=
  .record (some "SchemaEntry")
    [("name", optionTerm Term.text entry.name), ("path", .text entry.path)]

def Resolution.term (resolution : Resolution) : Term :=
  .record (some "RegistryOptions")
    [("suffixes", .list (resolution.suffixes.map .text)),
      ("aliases", .map (resolution.aliases.entries.map fun (type, model) =>
        (.text type, .text model)))]

def ImportOptions.term (options : ImportOptions) : Term :=
  .record (some "ImportOptions")
    [("include_layout", .bool options.layout),
      ("grid_spacing",
        .tuple none [distanceTerm options.spacing.x, distanceTerm options.spacing.y]),
      ("grid_columns", optionTerm naturalTerm options.columns)]

namespace Settings

def term (settings : Settings) : Term :=
  .record (some "Settings")
    [("version", naturalTerm settings.version),
      ("schemas", .list (settings.schemas.map SchemaEntry.term)),
      ("registry", settings.resolution.term),
      ("import", settings.importing.term),
      ("export", .record (some "ExportOptions") [("include_layout", .bool settings.exportLayout)])]

/-- The text of settings. -/
def text (settings : Settings) : String := settings.term.pretty

/-- The default settings with schemas listed under the names of their paths. -/
def listing (paths : List String) : Settings :=
  { schemas := paths.map fun path => { name := some (schemaName path), path := path } }

end Settings

end Workflow
