/-
This file holds JSON values.

An object is the list of its members in ascending order of their keys, one member
for each key; the operations here keep it so.
-/

import Workflow.Number.Numeral

namespace Workflow

open Number

/-- A JSON value. Integers fit 64 bits; every other number is a floating-point number. -/
inductive Json where
  | null
  | bool (value : Bool)
  | int (value : Int)
  | real (value : Binary)
  | string (text : String)
  | array (items : List Json)
  | object (members : List (String × Json))

instance : Inhabited Json := ⟨.null⟩

/-- The members of a JSON object. -/
abbrev Object := List (String × Json)

namespace Object

/-- The value under a key. -/
def get? : Object → String → Option Json
  | [], _ => none
  | (other, value) :: rest, key => if other = key then some value else get? rest key

/-- The object with a value under a key. -/
def insert : Object → String → Json → Object
  | [], key, value => [(key, value)]
  | (other, old) :: rest, key, value =>
    if key = other then (key, value) :: rest
    else if key < other then (key, value) :: (other, old) :: rest
    else (other, old) :: insert rest key value

/-- The object without a key. -/
def erase (members : Object) (key : String) : Object := members.filter fun entry => entry.1 ≠ key

/-- The object with a value under a key unless the key is present. -/
def insertNew (members : Object) (key : String) (value : Json) : Object :=
  if (members.get? key).isSome then members else members.insert key value

/-- The object of entries inserted one after the other, so the last of a key counts. -/
def ofList (entries : List (String × Json)) : Object :=
  entries.foldl (fun members (key, value) => members.insert key value) []

/-- The keys, in order. -/
def keys (members : Object) : List String := members.map (·.1)

end Object

namespace Json

/-- A number as a value. -/
def ofNumber : Number → Json
  | .int value => int value
  | .real value => real value

def ofNat (value : Nat) : Json := int value

/-- The text of a string value. -/
def text? : Json → Option String
  | string text => some text
  | _ => none

/-- The member of an object under a key; other values have none. -/
def member? (value : Json) (key : String) : Option Json :=
  match value with
  | object members => Object.get? members key
  | _ => none

/-- Whether a value counts as nothing entered: null, an empty text, list or object. A boolean is
never empty, for `false` is an answer. -/
def isEmpty : Json → Bool
  | null => true
  | string text => text.isEmpty
  | array items => items.isEmpty
  | object members => members.isEmpty
  | bool _ | int _ | real _ => false

end Json

end Workflow
