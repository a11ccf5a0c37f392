/-
This file holds the native kinds: types whose values are edited in place on an
unlinked input and that primitive nodes carry.
-/

import Workflow.Schema.TypeExpr

namespace Workflow

/-- A kind of value that can be edited in place. -/
inductive NativeKind where
  | boolean
  | integer
  | real
  | string
  | choice
  | list
  | dictionary
  deriving DecidableEq

namespace NativeKind

/-- The kind of a basic type; literal types are choices. -/
def ofName (name : String) : Option NativeKind :=
  match name with
  | "bool" => some boolean
  | "int" | "index" => some integer
  | "float" => some real
  | "str" | "string" => some string
  | _ => if name.toList.take 8 = "Literal[".toList then some choice else none

/-- The kind of a type, looking through one optional wrapper. -/
def ofType (type : TypeExpr) : Option NativeKind :=
  match type.withoutOptional with
  | .basic name => ofName name
  | .list _ => some list
  | .dict _ => some dictionary
  | _ => none

/-- The name of a kind. -/
def name : NativeKind → String
  | boolean => "boolean"
  | integer => "integer"
  | real => "real"
  | string => "string"
  | choice => "choice"
  | list => "list"
  | dictionary => "dictionary"

/-- All kinds. -/
def all : List NativeKind := [boolean, integer, real, string, choice, list, dictionary]

/-- The type that a primitive node of the kind produces. -/
def rawType : NativeKind → String
  | boolean => "bool"
  | integer => "int"
  | real => "float"
  | string | choice => "str"
  | list => "List[Any]"
  | dictionary => "Dict[str, Any]"

/-- The document type reserved for primitive nodes of the kind. -/
def primitiveTag : NativeKind → String
  | boolean => "$bool"
  | integer => "$int"
  | real => "$float"
  | string | choice => "$str"
  | list => "$list"
  | dictionary => "$dict"

/-- The kind that a reserved document type stands for. -/
def ofPrimitiveTag (tag : String) : Option NativeKind :=
  [boolean, integer, real, string, list, dictionary].find? fun kind => kind.primitiveTag == tag

end NativeKind

end Workflow
