/-
This file holds type expressions and reads them from text.

Reading is total: a text that matches no wrapper is a basic type named by the whole
trimmed text. A wrapper is recognised by the last dotted part of its head, so
`typing.Optional[int]` is optional. Texts joined by pipes outside brackets and
literals are a union, and a union of a type with the absent value is that type made
optional.
-/

import Workflow.Text.SplitLength

namespace Workflow

open Text

/-- A type of a schema field. A dictionary keeps the text of its value type. -/
inductive TypeExpr where
  | basic (name : String)
  | optional (inner : TypeExpr)
  | union (variants : List TypeExpr)
  | list (item : TypeExpr)
  | dict (value : String)
  | message (payload : TypeExpr)

namespace TypeExpr

/-- The name of the absent value inside unions. -/
def absentName : String := "None"

/-- The name of the type that stands for every type. -/
def anyName : String := "Any"

def isAbsent : TypeExpr → Bool
  | basic name => name == absentName
  | _ => false

/-- A union, or the optional type that a pair with the absent value stands for. Two absent values
leave a union of nothing. -/
def ofVariants (variants : List TypeExpr) : TypeExpr :=
  if variants.any isAbsent ∧ variants.length = 2 then
    match (variants.filter (!·.isAbsent)).getLast? with
    | some inner => optional inner
    | none => union []
  else union variants

/-- The wrappers that type texts use. -/
inductive Wrapper where
  | optional | union | list | dict | message | annotated
  deriving DecidableEq

/-- The wrapper a head names, if it names one. -/
def Wrapper.ofHead (head : List Char) : Option Wrapper :=
  match String.ofList (lastPart '.' head) with
  | "Optional" => some .optional
  | "Union" => some .union
  | "List" | "list" | "Sequence" | "Set" | "set" | "Tuple" | "tuple" => some .list
  | "Dict" | "dict" | "Mapping" => some .dict
  | "Message" => some .message
  | "Annotated" => some .annotated
  | _ => none

/-- Reads a type from characters. -/
def ofChars (text : List Char) : TypeExpr :=
  let pipes := splitTopLevel '|' (trim text)
  if several : 1 < pipes.length then
    ofVariants (pipes.attach.map fun ⟨piece, member⟩ =>
      have : piece.length < text.length :=
        Nat.lt_of_lt_of_le (length_lt_of_mem_splitTopLevel member several) (length_trim_le text)
      ofChars piece)
  else
    match call : splitSubscript (trim text) with
    | none => basic (String.ofList (trim text))
    | some (head, arguments) =>
      have shorter : arguments.length < text.length :=
        Nat.lt_of_lt_of_le (length_lt_of_splitCall call) (length_trim_le text)
      match Wrapper.ofHead head with
      | none => basic (String.ofList (trim text))
      | some .optional => optional (ofChars arguments)
      | some .message => message (ofChars arguments)
      | some .union =>
        ofVariants ((splitTopLevel ',' arguments).attach.map fun ⟨piece, member⟩ =>
          have : piece.length < text.length :=
            Nat.lt_of_le_of_lt (length_le_of_mem_splitTopLevel member) shorter
          ofChars piece)
      | some .dict =>
        dict (((splitTopLevel ',' arguments)[1]?).elim anyName String.ofList)
      | some .list =>
        let first := (splitTopLevel ',' arguments).head (splitTopLevel_ne_nil _ _)
        have : first.length < text.length :=
          Nat.lt_of_le_of_lt (length_le_of_mem_splitTopLevel (List.head_mem _)) shorter
        list (ofChars first)
      | some .annotated =>
        let first := (splitTopLevel ',' arguments).head (splitTopLevel_ne_nil _ _)
        have : first.length < text.length :=
          Nat.lt_of_le_of_lt (length_le_of_mem_splitTopLevel (List.head_mem _)) shorter
        ofChars first
termination_by text.length

/-- Reads a type. -/
def parse (raw : String) : TypeExpr := ofChars raw.toList

mutual

/-- The characters of a type's normal spelling. -/
def chars : TypeExpr → List Char
  | basic name => name.toList
  | optional inner => "Optional[".toList ++ inner.chars ++ [']']
  | union variants => "Union[".toList ++ charsOfAll variants ++ [']']
  | list item => "List[".toList ++ item.chars ++ [']']
  | dict value => "Dict[str, ".toList ++ value.toList ++ [']']
  | message payload => "Message[".toList ++ payload.chars ++ [']']

/-- The spellings of types, with a comma and a space between them. -/
def charsOfAll : List TypeExpr → List Char
  | [] => []
  | [only] => only.chars
  | first :: rest => first.chars ++ ", ".toList ++ charsOfAll rest

end

/-- The normal spelling of a type. -/
def display (type : TypeExpr) : String := String.ofList type.chars

mutual

/-- Whether a value of the type may be absent. -/
def isOptional : TypeExpr → Bool
  | optional _ => true
  | union variants => anyOptional variants
  | basic name => name == absentName
  | _ => false

/-- Whether some type is absent or admits absence. -/
def anyOptional : List TypeExpr → Bool
  | [] => false
  | first :: rest => first.isOptional || anyOptional rest

end

/-- The type with one optional wrapper removed. -/
def withoutOptional : TypeExpr → TypeExpr
  | optional inner => inner
  | other => other

/-- The name of a basic type. -/
def basicName : TypeExpr → Option String
  | basic name => some name
  | _ => none

end TypeExpr

end Workflow
