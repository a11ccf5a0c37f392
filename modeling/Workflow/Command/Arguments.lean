/-
This file reads the arguments of the command line.

The first plain argument names the task and the others belong to it. Options may
stand anywhere; a value is joined to its long option by an equals sign or follows
as the next argument, and two dashes make everything after them plain. A task
refuses options that mean nothing to it.
-/

import Workflow.Settings.Basic

namespace Workflow

open Text

/-- What the tool is asked to do. -/
inductive Task where
  | models (json : Bool)
  | check (document : String) (json : Bool)
  | roundtrip (document : String) (withLayout : Bool) (output : Option String)
  | preview (document : String)
  | watch (document : String)
  | newSettings (path : String) (force : Bool)

/-- A task with the settings file and the schemas it is given. -/
structure Invocation where
  config : Option String := none
  schemas : List String := []
  task : Task

/-- Why arguments make no invocation. -/
inductive UsageError where
  | noTask
  | unknownTask (name : String)
  | unknownOption (name : String)
  | missingValue (option : String)
  | unexpectedValue (option : String)
  | repeatedOption (name : String)
  | missingArgument (name : String)
  | unexpectedArgument (argument : String)

def UsageError.message : UsageError → String
  | noTask => "a command is required: models, check, roundtrip, preview, watch or init-config"
  | unknownTask name => "unrecognized command '" ++ name ++ "'"
  | unknownOption name => "unexpected argument '" ++ name ++ "' found"
  | missingValue option => "a value is required for '" ++ option ++ "' but none was supplied"
  | unexpectedValue option => "no value is expected for '" ++ option ++ "'"
  | repeatedOption name => "the argument '" ++ name ++ "' cannot be used multiple times"
  | missingArgument name => "the argument '" ++ name ++ "' is required"
  | unexpectedArgument argument => "unexpected argument '" ++ argument ++ "' found"

namespace Arguments

/-- An argument: an option by its long name with its value, or a plain one. -/
inductive Item where
  | option (name : String) (value : Option String)
  | plain (argument : String)

/-- The options that take a value. -/
def valueOptions : List String := ["--config", "--schema", "--output"]

/-- The options that take none. -/
def flagOptions : List String := ["--json", "--no-layout", "--force", "--verbose"]

/-- The long name of an option. -/
def longName (name : String) : String :=
  if name = "-s" then "--schema"
  else if name = "-o" then "--output"
  else if name = "-v" then "--verbose"
  else name

/-- An argument cut at its first equals sign if it is a long option. -/
def splitOption (argument : String) : String × Option String :=
  match argument.toList, cut '=' argument.toList with
  | '-' :: '-' :: _, some (name, value) => (String.ofList name, some (String.ofList value))
  | _, _ => (longName argument, none)

/-- Whether an argument is an option rather than a plain one. -/
def isOption (argument : String) : Bool :=
  match argument.toList with
  | '-' :: _ :: _ => true
  | _ => false

/-- Sorts arguments into options and plain ones. -/
def scan : List String → Except UsageError (List Item)
  | [] => .ok []
  | "--" :: rest => .ok (rest.map .plain)
  | argument :: rest =>
    if isOption argument then
      let (name, joined) := splitOption argument
      if valueOptions.contains name then
        match joined, rest with
        | some value, rest => (scan rest).map (.option name (some value) :: ·)
        | none, value :: rest => (scan rest).map (.option name (some value) :: ·)
        | none, [] => .error (.missingValue name)
      else if flagOptions.contains name then
        if joined.isSome then .error (.unexpectedValue name)
        else (scan rest).map (.option name none :: ·)
      else .error (.unknownOption argument)
    else (scan rest).map (.plain argument :: ·)

/-- The plain arguments. -/
def plainOnes (items : List Item) : List String :=
  items.filterMap fun
    | .plain argument => some argument
    | .option .. => none

/-- The names of the options. -/
def optionNames (items : List Item) : List String :=
  items.filterMap fun
    | .option name _ => some name
    | .plain _ => none

/-- The values of an option. -/
def valuesOf (items : List Item) (option : String) : List String :=
  items.filterMap fun
    | .option name value => if name = option then value else none
    | .plain _ => none

/-- The value of an option that comes at most once. -/
def valueOf (items : List Item) (option : String) : Option String := (valuesOf items option).head?

def hasFlag (items : List Item) (option : String) : Bool := (optionNames items).contains option

/-- The options that a task takes besides those of every task. -/
def optionsOf (task : String) : List String :=
  if task = "models" then ["--json"]
  else if task = "check" then ["--schema", "--json"]
  else if task = "roundtrip" then ["--schema", "--no-layout", "--output"]
  else if task = "preview" ∨ task = "watch" then ["--schema"]
  else ["--schema", "--force"]

/-- The options of every task. -/
def commonOptions : List String := ["--config", "--verbose"]

/-- The options that may come several times. -/
def repeatable : List String := ["--schema", "--verbose"]

/-- The first problem with the options of a task. -/
def optionProblem (task : String) (names : List String) : Option UsageError :=
  let allowed := commonOptions ++ optionsOf task
  match names.find? fun name => !allowed.contains name with
  | some name => some (.unknownOption name)
  | none =>
    (names.find? fun name => !repeatable.contains name && 1 < names.count name).map .repeatedOption

/-- The only plain argument of a task. -/
def onlyArgument (name : String) : List String → Except UsageError String
  | [] => .error (.missingArgument name)
  | [argument] => .ok argument
  | _ :: extra :: _ => .error (.unexpectedArgument extra)

/-- The task of a name. -/
def taskOf (items : List Item) (name : String) (plain : List String) : Except UsageError Task :=
  let document := onlyArgument "<DOCUMENT>" plain
  let json := hasFlag items "--json"
  if name = "models" then .ok (.models json)
  else if name = "check" then document.map fun document => .check document json
  else if name = "roundtrip" then
    document.map fun document =>
      .roundtrip document (!hasFlag items "--no-layout") (valueOf items "--output")
  else if name = "preview" then document.map .preview
  else if name = "watch" then document.map .watch
  else if name = "init-config" then
    (onlyArgument "[PATH]" (if plain.isEmpty then [settingsFileName] else plain)).map fun path =>
      .newSettings path (hasFlag items "--force")
  else .error (.unknownTask name)

/-- Reads arguments. -/
def parse (arguments : List String) : Except UsageError Invocation := do
  let items ← scan arguments
  match plainOnes items with
  | [] => .error .noTask
  | name :: plain =>
    let task ← taskOf items name plain
    match optionProblem name (optionNames items) with
    | some problem => .error problem
    | none =>
      .ok
        { config := valueOf items "--config"
          schemas := if name = "models" then plain else valuesOf items "--schema"
          task := task }

end Arguments

end Workflow
