/-
This file reads terms from settings files.

A file may name extensions of the notation before its term; they loosen how optional
values are written, or require the names of records. The reader goes through the
lexemes once with what is still open on a stack. Whether parentheses hold a tuple or
a record shows at their first item: a word followed by a colon is a key. Collections
may end with a comma. Where the parentheses after a mark may be those of its value, a
glance at them goes with the term.
-/

import Workflow.Term.Basic
import Workflow.Term.Glance

namespace Workflow.Term

/-- How optional values and records are written. -/
structure Style where
  /-- Optional values may stand by themselves, and their mark without parentheses. -/
  bareValues : Bool
  /-- The parentheses after the mark of an optional value may be those of the value. -/
  sharedParentheses : Bool
  /-- Records must have their names. -/
  namedRecords : Bool

/-- An opening parenthesis: the name in front of it and the text behind it. -/
structure Opening where
  name : Option String
  behind : List Char

/-- What is still open around the term being read, with what it holds so far in reverse. -/
inductive Frame where
  /-- A mark without parentheses. -/
  | present
  | list (items : List Term)
  | tuple (opening : Opening) (items : List Term)
  | record (name : Option String) (members : List (String × Term)) (key : String)
  | mapKey (entries : List (Term × Term))
  | mapValue (entries : List (Term × Term)) (key : Term)

/-- What comes next in a file. Contents of collections so far are in reverse. -/
inductive Phase where
  | value
  | afterWord (name : String)
  | nextItem (items : List Term)
  | afterItem (items : List Term)
  | opened (opening : Opening)
  | openedWord (opening : Opening) (first : String)
  | nextPart (opening : Opening) (items : List Term)
  | afterPart (opening : Opening) (items : List Term)
  | nextMember (name : Option String) (members : List (String × Term))
  | colon (name : Option String) (members : List (String × Term)) (key : String)
  | afterMember (name : Option String) (members : List (String × Term))
  | nextEntry (entries : List (Term × Term))
  | afterKey (entries : List (Term × Term)) (key : Term)
  | afterEntry (entries : List (Term × Term))
  | done (value : Term)

/-- What is open, innermost first, and what comes next. -/
abbrev State := List Frame × Phase

/-- How many levels a file may take up. Whatever is open takes up one at least. -/
def levelLimit : Nat := 128

/-- Puts a term where the innermost open frame awaits it. -/
def give (value : Term) : List Frame → State
  | [] => ([], .done value)
  | .present :: frames => give (present .faithful value) frames
  | .list items :: frames => (frames, .afterItem (value :: items))
  | .tuple opening items :: frames => (frames, .afterPart opening (value :: items))
  | .record name members key :: frames => (frames, .afterMember name ((key, value) :: members))
  | .mapKey entries :: frames => (frames, .afterKey entries value)
  | .mapValue entries key :: frames => (frames, .afterEntry ((key, value) :: entries))

/-- What the parentheses after a mark look like that hold so many values. -/
def lookOf (count : Nat) (behind : List Char) : Look :=
  match seemsTuple behind with
  | none => .misleading
  | some true => if count = 1 then .tupled else .faithful
  | some false => if count = 1 then .faithful else .misleading

/-- The value that a mark in front of parentheses with these items makes present. The mark is for
one item, unless the parentheses are those of its value. -/
def presentItems? (style : Style) (behind : List Char) (items : List Term) : Option Term :=
  if style.sharedParentheses then
    match items with
    | [] => some (present .faithful unit)
    | [value] => some (present (lookOf 1 behind) value)
    | items => some (present (lookOf items.length behind) (tuple none items))
  else
    match items with
    | [value] => some (present .faithful value)
    | _ => none

/-- The tuple that parentheses with so many items make. -/
def tuple? (style : Style) (opening : Opening) (items : List Term) : Option Term :=
  if opening.name = some presenceMark then presentItems? style opening.behind items
  else if opening.name.any valueWords.contains then none
  else some (tuple opening.name items)

/-- The record that parentheses with a name make. -/
def record? (style : Style) (name : Option String) (members : List (String × Term)) : Option Term :=
  if name = some presenceMark then
    if style.sharedParentheses then some (present .faithful (record none members)) else none
  else if name.any valueWords.contains then none
  else some (record name members)

/-- Ends a tuple. -/
def giveTuple (style : Style) (opening : Opening) (items : List Term) (frames : List Frame) :
    Option State :=
  (tuple? style opening items.reverse).map fun value => give value frames

/-- Ends a record. -/
def giveRecord (style : Style) (name : Option String) (members : List (String × Term))
    (frames : List Frame) : Option State :=
  (record? style name members.reverse).map fun value => give value frames

/-- Reads a lexeme where a term may start. -/
def startTerm (frames : List Frame) (lexeme : Lexeme) : Option State :=
  match lexeme with
  | .word name => some (frames, .afterWord name)
  | .numeral literal => some (give (numeral literal) frames)
  | .text value => some (give (text value) frames)
  | .bytes => some (give bytes frames)
  | .unit => some (give unit frames)
  | .opening behind => some (frames, .opened ⟨none, behind⟩)
  | .mark '[' => some (frames, .nextItem [])
  | .mark '\x7b' => some (frames, .nextEntry [])
  | .mark _ => none

/-- Reads a lexeme after a term that is not a word. -/
def stepAfter (style : Style) (frames : List Frame) (phase : Phase) (lexeme : Lexeme) :
    Option State :=
  match phase, lexeme with
  | .afterItem items, .mark ',' => some (frames, .nextItem items)
  | .afterItem items, .mark ']' => some (give (list items.reverse) frames)
  | .afterPart opening items, .mark ',' => some (frames, .nextPart opening items)
  | .afterPart opening items, .mark ')' => giveTuple style opening items frames
  | .afterMember name members, .mark ',' => some (frames, .nextMember name members)
  | .afterMember name members, .mark ')' => giveRecord style name members frames
  | .afterKey entries key, .mark ':' => some (.mapValue entries key :: frames, .value)
  | .afterEntry entries, .mark ',' => some (frames, .nextEntry entries)
  | .afterEntry entries, .mark '\x7d' => some (give (map entries.reverse) frames)
  | _, _ => none

/-- Reads a lexeme after a word: it may be the name of what parentheses hold, or the mark of the
value that follows. -/
def stepAfterWord (style : Style) (frames : List Frame) (name : String) (lexeme : Lexeme) :
    Option State :=
  match lexeme with
  | .unit => giveTuple style ⟨some name, []⟩ [] frames
  | .opening behind => some (frames, .opened ⟨some name, behind⟩)
  | lexeme =>
    if name = presenceMark then
      if style.bareValues then startTerm (.present :: frames) lexeme else none
    else
      let (frames, phase) := give (word name) frames
      stepAfter style frames phase lexeme

/-- Reads one lexeme. -/
def step (style : Style) (frames : List Frame) (phase : Phase) (lexeme : Lexeme) : Option State :=
  match phase, lexeme with
  | .value, lexeme => startTerm frames lexeme
  | .afterWord name, lexeme => stepAfterWord style frames name lexeme
  | .nextItem items, .mark ']' => some (give (list items.reverse) frames)
  | .nextItem items, lexeme => startTerm (.list items :: frames) lexeme
  | .opened opening, .mark ')' => giveTuple style opening [] frames
  | .opened opening, .word first => some (frames, .openedWord opening first)
  | .opened opening, lexeme => startTerm (.tuple opening [] :: frames) lexeme
  | .openedWord opening first, .mark ':' =>
    some (.record opening.name [] (plainName first) :: frames, .value)
  | .openedWord opening first, lexeme =>
    stepAfterWord style (.tuple opening [] :: frames) first lexeme
  | .nextPart opening items, .mark ')' => giveTuple style opening items frames
  | .nextPart opening items, lexeme => startTerm (.tuple opening items :: frames) lexeme
  | .nextMember name members, .mark ')' => giveRecord style name members frames
  | .nextMember name members, .word key => some (frames, .colon name members (plainName key))
  | .colon name members key, .mark ':' => some (.record name members key :: frames, .value)
  | .nextEntry entries, .mark '\x7d' => some (give (map entries.reverse) frames)
  | .nextEntry entries, lexeme => startTerm (.mapKey entries :: frames) lexeme
  | phase, lexeme => stepAfter style frames phase lexeme

/-- Reads lexemes that are one term. -/
def ofLexemes (style : Style) (frames : List Frame) (phase : Phase) : List Lexeme → Option Term
  | [] =>
    match frames, phase with
    | [], .done value => some value
    | [], .afterWord name => if name = presenceMark then none else some (word name)
    | _, _ => none
  | lexeme :: rest =>
    (step style frames phase lexeme).bind fun (frames, phase) =>
      if levelLimit < frames.length then none else ofLexemes style frames phase rest

/-- The extensions of the notation that a file may name. -/
def extensionNames : List String :=
  ["implicit_some", "unwrap_newtypes", "unwrap_variant_newtypes", "explicit_struct_names"]

/-- The names that follow with one more in front, if it is that of an extension. -/
def withName (name : String) :
    List String × List Lexeme → Option (List String × List Lexeme)
  | (names, rest) =>
    if extensionNames.contains (plainName name) then some (plainName name :: names, rest)
    else none

mutual

/-- Reads the extensions that a file names before its term, each attribute as a list. -/
def scanExtensions : List Lexeme → Option (List String × List Lexeme)
  | .mark '#' :: .mark '!' :: .mark '[' :: .word name :: .opening _ :: rest =>
    if name = "enable" then scanNames rest else none
  | rest => some ([], rest)

/-- Reads the names of one attribute to its end, and the attributes after it. -/
def scanNames : List Lexeme → Option (List String × List Lexeme)
  | .word name :: .mark ')' :: .mark ']' :: rest => (scanExtensions rest).bind (withName name)
  | .word name :: .mark ',' :: .mark ')' :: .mark ']' :: rest =>
    (scanExtensions rest).bind (withName name)
  | .word name :: .mark ',' :: rest => (scanNames rest).bind (withName name)
  | _ => none

end

/-- The style that the extensions named by a file call for. -/
def Style.ofExtensions (names : List String) : Style where
  bareValues := names.contains "implicit_some"
  sharedParentheses := names.contains "unwrap_variant_newtypes"
  namedRecords := names.contains "explicit_struct_names"

/-- Reads a text that is one term, and the style it is written in. -/
def parse (text : String) : Option (Style × Term) :=
  ((lexemes text.toList).bind scanExtensions).bind fun (names, rest) =>
    let style := Style.ofExtensions names
    ((ofLexemes style [] .value rest).filter fun term => term.levels ≤ levelLimit).map
      fun term => (style, term)

end Workflow.Term
