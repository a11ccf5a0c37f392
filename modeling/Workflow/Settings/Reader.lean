/-
This file reads settings.

Members that settings do not know are passed over, and those left out keep their
defaults; only the version is required. No known member may come twice. The
extensions of the notation may let optional values stand without `Some`, or require
the names of records.
-/

import Workflow.Settings.Basic
import Workflow.Term.Reader

namespace Workflow

open Number

/-- Why settings cannot be used. -/
inductive SettingsError where
  | unreadable (problem : FileProblem)
  | malformed
  | tooNew (version : Nat)

def SettingsError.message : SettingsError → String
  | unreadable _ => "The settings file cannot be read"
  | malformed => "The settings file is malformed"
  | tooNew version =>
    "Settings version " ++ toString version ++ " is newer than supported version " ++
      toString settingsVersion

namespace Term

/-- Whether a record may be written with a name, or without one. -/
def Style.accepts (style : Style) (expected : String) (written : Option String) : Bool :=
  match written with
  | none => !style.namedRecords
  | some name => plainName name == expected

/-- The members of a record that should have a name. Those with unknown keys are passed over. -/
def members? (style : Style) (name : String) (keys : List String) :
    Term → Option (List (String × Term))
  | record written members =>
    let unknown := members.filter fun entry => !keys.contains entry.1
    if style.accepts name written && membersArePlain unknown then some members else none
  | tuple written [] => if style.accepts name written then some [] else none
  | unit => if style.accepts name none then some [] else none
  | _ => none

/-- Reads the member of a key that comes at most once, if it comes at all. -/
def optionalField {Value : Type} (members : List (String × Term)) (key : String)
    (read : Term → Option Value) : Option (Option Value) :=
  match members.filter fun entry => entry.1 = key with
  | [] => some none
  | [(_, value)] => (read value).map some
  | _ => none

/-- Reads the member of a key that has a default. -/
def field {Value : Type} (members : List (String × Term)) (key : String)
    (read : Term → Option Value) (start : Value) : Option Value :=
  (optionalField members key read).map fun found => found.getD start

/-- Reads the member of a key that must come. -/
def requiredField {Value : Type} (members : List (String × Term)) (key : String)
    (read : Term → Option Value) : Option Value :=
  (optionalField members key read).join

def bool? : Term → Option Bool
  | word name => if name = "true" then some true else if name = "false" then some false else none
  | _ => none

def text? : Term → Option String
  | text value => some value
  | _ => none

/-- A natural number of a width. -/
def naturalValue? (bits : Nat) : Term → Option Nat
  | numeral literal => natural? bits literal
  | _ => none

/-- A single-precision number; infinity and the undefined number are words. -/
def singleValue? : Term → Option Single
  | numeral literal => single? literal
  | word name => single? name.toList
  | _ => none

/-- An optional value. -/
def option? {Value : Type} (style : Style) (read : Term → Option Value) :
    Term → Option (Option Value)
  | word "None" => some none
  | present _ value => (read value).map some
  | value => if style.bareValues then (read value).map some else none

def list? {Value : Type} (read : Term → Option Value) : Term → Option (List Value)
  | list items => items.mapM read
  | _ => none

/-- An entry from a text to a text. -/
def textEntry? (entry : Term × Term) : Option (String × String) :=
  (text? entry.1).bind fun key => (text? entry.2).map fun value => (key, value)

/-- A map from texts to texts; of equal keys the last counts. -/
def textMap? : Term → Option (OrderedMap String String)
  | map entries => (entries.mapM textEntry?).map OrderedMap.ofList
  | _ => none

def point? : Term → Option Point
  | tuple none [x, y] => do
    let x ← x.singleValue?
    let y ← y.singleValue?
    some ⟨x, y⟩
  | _ => none

end Term

open Term

def SchemaEntry.ofTerm? (style : Style) (term : Term) : Option SchemaEntry := do
  let members ← term.members? style "SchemaEntry" ["name", "path"]
  let name ← field members "name" (option? style text?) none
  let path ← requiredField members "path" text?
  some ⟨name, path⟩

def Resolution.ofTerm? (style : Style) (term : Term) : Option Resolution := do
  let standard : Resolution := {}
  let members ← term.members? style "RegistryOptions" ["suffixes", "aliases"]
  let suffixes ← field members "suffixes" (list? text?) standard.suffixes
  let aliases ← field members "aliases" textMap? standard.aliases
  some ⟨suffixes, aliases⟩

def ImportOptions.ofTerm? (style : Style) (term : Term) : Option ImportOptions := do
  let standard : ImportOptions := {}
  let members ← term.members? style "ImportOptions"
    ["include_layout", "grid_spacing", "grid_columns"]
  let layout ← field members "include_layout" bool? standard.layout
  let spacing ← field members "grid_spacing" point? standard.spacing
  let columns ← field members "grid_columns" (option? style (naturalValue? 64)) standard.columns
  some ⟨layout, spacing, columns⟩

/-- Whether the options for writing documents ask for the layout. -/
def exportLayout? (style : Style) (term : Term) : Option Bool := do
  let members ← term.members? style "ExportOptions" ["include_layout"]
  field members "include_layout" bool? true

namespace Settings

def ofTerm? (style : Style) (term : Term) : Option Settings := do
  let members ← term.members? style "Settings"
    ["version", "schemas", "registry", "import", "export"]
  let version ← requiredField members "version" (naturalValue? 32)
  let schemas ← field members "schemas" (list? (SchemaEntry.ofTerm? style)) []
  let resolution ← field members "registry" (Resolution.ofTerm? style) {}
  let importing ← field members "import" (ImportOptions.ofTerm? style) {}
  let exportLayout ← field members "export" (exportLayout? style) true
  some ⟨version, schemas, resolution, importing, exportLayout⟩

/-- Reads settings of any version. -/
def parse (text : String) : Option Settings :=
  (Term.parse text).bind fun (style, term) => ofTerm? style term

/-- Reads settings of a version that is understood. -/
def load (text : String) : Except SettingsError Settings :=
  match parse text with
  | none => .error .malformed
  | some settings =>
    if settingsVersion < settings.version then .error (.tooNew settings.version) else .ok settings

/-- The settings to work with: those of the file that is named, or else of the usual file if there
is one, or else the defaults. -/
def discover (read : String → Except FileProblem String) (isPresent : String → Bool)
    (path : Option String) : Except SettingsError Settings :=
  let loadFrom (path : String) : Except SettingsError Settings :=
    match read path with
    | .ok content => load content
    | .error problem => .error (.unreadable problem)
  match path with
  | some path => loadFrom path
  | none => if isPresent settingsFileName then loadFrom settingsFileName else .ok {}

end Settings

end Workflow
