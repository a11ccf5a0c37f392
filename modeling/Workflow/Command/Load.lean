/-
This file loads what commands work on: a session with the schemas that are given or
configured, and a document. It also makes new settings files.

Files are read through a function that tells the text of a path, so nothing here
depends on where files are kept.
-/

import Workflow.Document.Reader
import Workflow.Session
import Workflow.Settings.Text

namespace Workflow

/-- Why a command cannot be carried out. -/
inductive CommandError where
  | noSchemas
  | unreadableSchema (path : String)
  | unreadableDocument (path : String)
  | malformedDocument (path : String)
  | alreadyPresent (path : String)
  | unwritable (path : String)

def CommandError.message : CommandError → String
  | noSchemas => "No schema files given and none configured"
  | unreadableSchema path => "Failed to read schema " ++ path
  | unreadableDocument path => "Failed to read document " ++ path
  | malformedDocument path => "Failed to parse document " ++ path
  | alreadyPresent path => path ++ " already exists (use --force to overwrite)"
  | unwritable path => "Failed to write " ++ path

/-- Tells the text of the file under a path, if it can be read. -/
abbrev ReadFile := String → Option String

/-- The schemas to load: those given by path, or else the configured ones. -/
def Settings.schemasFor (settings : Settings) (paths : List String) : List SchemaEntry :=
  if paths.isEmpty then settings.schemas else paths.map fun path => { path := path }

namespace Session

/-- Registers the schema of an entry. -/
def loadSchema (read : ReadFile) (session : Session) (entry : SchemaEntry) :
    Except CommandError Session :=
  match read entry.path with
  | none => .error (.unreadableSchema entry.path)
  | some source => .ok (session.registerSchema entry.registryName source).2

/-- A session with the schemas given by path, or else with the configured ones. -/
def load (settings : Settings) (paths : List String) (read : ReadFile) :
    Except CommandError Session :=
  let entries := settings.schemasFor paths
  if entries.isEmpty then .error .noSchemas
  else entries.foldlM (loadSchema read) { registry := { resolution := settings.resolution } }

end Session

/-- Reads the document under a path. -/
def Document.load (path : String) (read : ReadFile) : Except CommandError Document :=
  match read path with
  | none => .error (.unreadableDocument path)
  | some text =>
    match Document.parse text with
    | .ok document => .ok document
    | .error _ => .error (.malformedDocument path)

/-- The text of a new settings file that lists schemas. A file that is already there is only
replaced by force. -/
def newSettings (path : String) (isPresent : Bool) (schemas : List String) (force : Bool) :
    Except CommandError String :=
  if isPresent && !force then .error (.alreadyPresent path) else .ok (Settings.listing schemas).text

end Workflow
