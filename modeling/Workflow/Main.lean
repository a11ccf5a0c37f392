/-
This file is the command line of the tool. It reads the files that a task needs,
runs the task and prints what comes of it. A check of a document that is not ready
ends with status 2, and so do arguments that are not understood; every other
failure ends with status 1.
-/

import Workflow.Command.Arguments
import Workflow.Command.Check
import Workflow.Command.Load
import Workflow.Command.Models
import Workflow.Command.Run
import Workflow.Settings.Reader

namespace Workflow

/-- The text of a file that can be read. -/
def readFile (path : String) : IO (Option String) := do
  try
    let content ← IO.FS.readFile path
    return some content
  catch _ => return none

/-- Whether there is a file under a path. -/
def isPresentFile (path : String) : IO Bool := do
  try
    let _ ← IO.FS.Handle.mk path .read
    return true
  catch _ => return false

/-- The texts of all files that can be read. -/
def readFiles (paths : List String) : IO ReadFile := do
  let entries ← paths.mapM fun path => do
    return (path, ← readFile path)
  return fun path => (entries.lookup path).join

/-- Fails with a message. -/
def fail {Value : Type} (message : String) : IO Value := throw (IO.userError message)

/-- The result of a task, or its error as a failure. -/
def orFail {Value : Type} : Except CommandError Value → IO Value
  | .ok value => return value
  | .error problem => fail problem.message

/-- Writes a text to a file. -/
def writeFile (path content : String) : IO Unit := do
  try IO.FS.writeFile path content
  catch _ => fail (CommandError.unwritable path).message

/-- The settings to work with. -/
def discoverSettings (config : Option String) : IO Settings := do
  let path := config.getD settingsFileName
  let content ← readFile path
  let present ← isPresentFile path
  let read := fun _ => content.elim (.error .missing) .ok
  match Settings.discover read (fun _ => present) config with
  | .ok settings => return settings
  | .error problem => fail ("Failed to load settings: " ++ problem.message)

/-- A seed for identifiers, different for every run. -/
def randomSeed : IO Nat := do
  let bytes ← IO.getRandomBytes 5
  return bytes.toList.foldl (fun seed byte => 256 * seed + byte.toNat) 0

/-- A session with the schemas of an invocation. -/
def loadSession (settings : Settings) (schemas : List String) : IO Session := do
  let read ← readFiles ((settings.schemasFor schemas).map SchemaEntry.path)
  let session ← orFail (Session.load settings schemas read)
  return session.seeded (← randomSeed)

/-- The document under a path. -/
def loadDocument (path : String) : IO Document := do
  let read ← readFiles [path]
  orFail (Document.load path read)

/-- Checks a document and prints the report. -/
def runCheck (settings : Settings) (schemas : List String) (document : String) (json : Bool) :
    IO Bool := do
  let session ← loadSession settings schemas
  let document ← loadDocument document
  let (report, _) := session.check document settings.importing
  if json then IO.println report.tree.pretty else IO.print report.render
  return report.isReady

/-- The files that a watch looks at, with their texts. -/
def watchedTexts (settings : Settings) (schemas : List String) (document : String) :
    IO (List (Option String)) :=
  (document :: (settings.schemasFor schemas).map SchemaEntry.path).mapM readFile

/-- Checks a document and prints the report, or else what went wrong. -/
def reportCheck (settings : Settings) (schemas : List String) (document : String) : IO Unit := do
  try
    let _ ← runCheck settings schemas document false
  catch problem => IO.eprintln (toString problem)

/-- Checks a document again whenever one of the files has changed. -/
partial def watch (settings : Settings) (schemas : List String) (document : String)
    (before : List (Option String)) : IO Unit := do
  IO.sleep 250
  let now ← watchedTexts settings schemas document
  if now != before then
    IO.println ""
    reportCheck settings schemas document
  watch settings schemas document now

/-- Runs a task; the answer is the status to end with. -/
def run (invocation : Invocation) : IO UInt32 := do
  let schemas := invocation.schemas
  match invocation.task with
  | .newSettings path force =>
    writeFile path (← orFail (newSettings path (← isPresentFile path) schemas force))
    return 0
  | .models json =>
    let settings ← discoverSettings invocation.config
    let session ← loadSession settings schemas
    if json then IO.println session.registry.modelsJson.tree.pretty
    else IO.print session.registry.describe
    return 0
  | .check document json =>
    let settings ← discoverSettings invocation.config
    return if ← runCheck settings schemas document json then 0 else 2
  | .roundtrip path withLayout output =>
    let settings ← discoverSettings invocation.config
    let session ← loadSession settings schemas
    let document ← loadDocument path
    let (_, exported) :=
      session.roundtrip document settings.importing (settings.exportLayout && withLayout)
    match output with
    | some path => writeFile path exported.text
    | none => IO.println exported.text
    return 0
  | .preview path =>
    let settings ← discoverSettings invocation.config
    let session ← loadSession settings schemas
    let document ← loadDocument path
    IO.println (session.previewDocument document settings.importing).tree.pretty
    return 0
  | .watch document =>
    let settings ← discoverSettings invocation.config
    let texts ← watchedTexts settings schemas document
    reportCheck settings schemas document
    watch settings schemas document texts
    return 0

end Workflow

def main (arguments : List String) : IO UInt32 := do
  match Workflow.Arguments.parse arguments with
  | .error problem =>
    IO.eprintln ("error: " ++ problem.message)
    return 2
  | .ok invocation =>
    try Workflow.run invocation
    catch problem =>
      IO.eprintln ("Error: " ++ toString problem)
      return 1
