/-
This file holds paths and directories kept in memory.

A path is relative to the directory. Its pieces between slashes lead from one
directory to the next: an empty piece and a single dot stay where they are, and two
dots go back. Nothing is inside a file. A path may lead out of the directory, where
nothing is known but that there are directories all the way up.
-/

import Workflow.Text.Cut

namespace Workflow

open Text

/-- The pieces of a path between slashes. -/
def pathPieces (path : String) : List (List Char) := splitAll (· == '/') path.toList

/-- Whether a piece of a path stays where it is. -/
def staysPut (piece : List Char) : Bool := piece.isEmpty || piece == ['.']

/-- Whether a piece of a path goes back. -/
def goesBack (piece : List Char) : Bool := piece == ['.', '.']

/-- The name of the file that a path ends with. -/
def fileName? (path : String) : Option (List Char) :=
  ((pathPieces path).filter fun piece => !staysPut piece).getLast?.filter fun piece =>
    !goesBack piece

/-- A file name without its last extension; a dot in front starts no extension. -/
def withoutExtension (name : List Char) : List Char :=
  match cutLast '.' name with
  | some (before, _) => if before.isEmpty then name else before
  | none => name

/-- A place in a directory: the names that lead to it. -/
abbrev Place := List (List Char)

/-- Where a path leads. -/
inductive Spot where
  | inside (place : Place)
  /-- A directory around the one that is known. -/
  | outside

/-- The directory that a spot is in. -/
def Spot.parent : Spot → Spot
  | inside [] | outside => outside
  | inside place => inside place.dropLast

/-- Why there is no file to read under a path. -/
inductive FileProblem where
  | missing
  | isDirectory
  /-- The path goes through a file. -/
  | isNoDirectory
  | nameTooLong
  | nameInvalid

/-- The bytes that a name may have. -/
def nameLimit : Nat := 255

/-- The bytes that a path may have. -/
def pathLimit : Nat := 4095

/-- Whether a path does not start in the directory. -/
def isAbsolute (path : String) : Bool := path.toList.head? == some '/'

/-- What is wrong with a path, whatever the files are. -/
def pathProblem? (path : String) : Option FileProblem :=
  if path.toList.contains '\x00' then some .nameInvalid
  else if path.isEmpty then some .missing
  else if pathLimit < path.utf8ByteSize then some .nameTooLong
  else none

/-- Whether a piece of a path can name a file. -/
def isFileName (piece : List Char) : Bool :=
  !staysPut piece && !goesBack piece && (String.ofList piece).utf8ByteSize ≤ nameLimit

/-- A directory kept in memory: the text of the file at each place, and the directories inside. -/
structure Files where
  entries : List (Place × String) := []
  directories : List Place := []

namespace Files

/-- The text of the file at a place. -/
def textAt? (files : Files) (place : Place) : Option String := files.entries.lookup place

/-- Whether there is a directory at a spot. -/
def isDirectory (files : Files) : Spot → Bool
  | .inside place => place.isEmpty || files.directories.contains place
  | .outside => true

/-- The spot under a name in a directory. -/
def enter (files : Files) (spot : Spot) (name : List Char) : Except FileProblem Spot :=
  match spot with
  | .outside => .error .missing
  | .inside place =>
    let place := place ++ [name]
    if files.isDirectory (.inside place) || (files.textAt? place).isSome then .ok (.inside place)
    else .error (if isFileName name then .missing else .nameTooLong)

/-- Where pieces of a path lead from a spot. -/
def walk (files : Files) (spot : Spot) : List (List Char) → Except FileProblem Spot
  | [] => .ok spot
  | piece :: rest =>
    if !files.isDirectory spot then .error .isNoDirectory
    else if staysPut piece then files.walk spot rest
    else if goesBack piece then files.walk spot.parent rest
    else
      match files.enter spot piece with
      | .ok spot => files.walk spot rest
      | .error problem => .error problem

/-- Where a path starts: in the directory, or outside if it begins with a slash. -/
def startOf (path : String) : Spot := if isAbsolute path then .outside else .inside []

/-- Where a path leads. -/
def follow (files : Files) (path : String) : Except FileProblem Spot :=
  match pathProblem? path with
  | some problem => .error problem
  | none => files.walk (startOf path) (pathPieces path)

/-- Whether there is something under a path. -/
def isPresent (files : Files) (path : String) : Bool := (files.follow path).toBool

/-- The text of the file under a path. -/
def read (files : Files) (path : String) : Except FileProblem String :=
  match files.follow path with
  | .error problem => .error problem
  | .ok .outside => .error .isDirectory
  | .ok (.inside place) =>
    match files.textAt? place with
    | some text => .ok text
    | none => .error .isDirectory

/-- The text of the file under a path, if there is one. -/
def read? (files : Files) (path : String) : Option String := (files.read path).toOption

/-- The directory with a text written to a place. -/
def put (files : Files) (place : Place) (text : String) : Files :=
  { files with entries := (place, text) :: files.entries.filter fun entry => entry.1 ≠ place }

/-- Writes a text to a path, whose directory has to exist. -/
def write? (files : Files) (path text : String) : Option Files :=
  let pieces := pathPieces path
  let name := pieces.getLast?.getD []
  match files.follow path, files.walk (startOf path) pieces.dropLast with
  | .ok (.inside place), _ =>
    if files.isDirectory (.inside place) then none else some (files.put place text)
  | .error .missing, .ok (.inside place) =>
    if isFileName name && files.isDirectory (.inside place) then
      some (files.put (place ++ [name]) text)
    else none
  | _, _ => none

/-! ### Making directories -/

/-- Makes the directories that pieces of a path lead through, and tells where they end. -/
def makeWay (files : Files) (place : Place) : List (List Char) → Option (Files × Place)
  | [] => some (files, place)
  | piece :: rest =>
    if staysPut piece then files.makeWay place rest
    else if goesBack piece then if place.isEmpty then none else files.makeWay place.dropLast rest
    else
      let place := place ++ [piece]
      if !isFileName piece || (files.textAt? place).isSome then none
      else
        let files := { files with directories := files.directories.insert place }
        files.makeWay place rest

/-- The directory with a file added under a path, together with the directories on the way. A file
that cannot be there is left out. -/
def add (files : Files) (path text : String) : Files :=
  if isAbsolute path then files
  else
    match files.makeWay [] (pathPieces path).dropLast with
    | some (way, _) => (way.write? path text).getD files
    | none => files

/-- The directory of files given by paths. Of files with the same place the last one counts. -/
def ofList (files : List (String × String)) : Files :=
  files.foldl (fun files (path, text) => files.add path text) {}

end Files

end Workflow
