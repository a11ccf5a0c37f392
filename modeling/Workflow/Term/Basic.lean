/-
This file holds terms, the values that settings files are made of.

A word is a name that stands for itself. Parentheses hold a tuple or, if the items
have keys, a record, and either may carry a name in front; parentheses with nothing
at all between them are the unit. An optional value is the word `None` or a value
that is marked as present. Numerals are kept as written, because how they are read
depends on what is asked for.

The parentheses after a mark may be looked over before they are read, and then the
mark keeps what they look like. That matters only for terms that are passed over,
because there the look counts and not what is asked for.

Terms take up levels: one for a collection, one more for its items, and one for the
mark of a present value. Files may not go beyond a number of levels.
-/

namespace Workflow

/-- What the parentheses after a mark look like, compared with what they hold. -/
inductive Look where
  | faithful
  /-- They hold one value and look like a tuple. -/
  | tupled
  /-- They look like something else than what they hold, or like nothing at all. -/
  | misleading

/-- A value of a settings file. -/
inductive Term where
  | word (name : String)
  | numeral (literal : List Char)
  | text (value : String)
  /-- A single character, or text meant as bytes; no setting is one. -/
  | bytes
  | unit
  | present (look : Look) (value : Term)
  | list (items : List Term)
  | map (entries : List (Term × Term))
  | tuple (name : Option String) (items : List Term)
  | record (name : Option String) (members : List (String × Term))

namespace Term

def bool (value : Bool) : Term := word (if value then "true" else "false")

def absent : Term := word "None"

/-- The word that marks a value as present. -/
def presenceMark : String := "Some"

/-- Words that stand for a value and therefore name no tuple or record. -/
def valueWords : List String :=
  ["true", "false", "None", "inf", "inff32", "inff64", "NaN", "NaNf32", "NaNf64"]

/-- An identifier without the mark that lets it hold dots and signs. -/
def plainName (name : String) : String :=
  match name.toList with
  | 'r' :: '#' :: rest => String.ofList rest
  | _ => name

/-- The levels that a mark takes up. -/
def markLevels : Look → Nat
  | .tupled => 3
  | _ => 1

mutual

/-- The levels that a term takes up. -/
def levels : Term → Nat
  | word _ | numeral _ | text _ | bytes | unit => 0
  | present look value => value.levels + markLevels look
  | list items | tuple _ items => itemLevels items
  | map entries => entryLevels entries
  | record _ members => memberLevels members

/-- The levels of a collection of items. -/
def itemLevels : List Term → Nat
  | [] => 1
  | item :: rest => max (item.levels + 2) (itemLevels rest)

/-- The levels of a map. -/
def entryLevels : List (Term × Term) → Nat
  | [] => 1
  | (key, value) :: rest => max (max key.levels value.levels + 2) (entryLevels rest)

/-- The levels of a record. -/
def memberLevels : List (String × Term) → Nat
  | [] => 1
  | (_, value) :: rest => max (value.levels + 2) (memberLevels rest)

end

mutual

/-- Whether a term can be passed over, that is, no parentheses in it are misleading. -/
def isPlain : Term → Bool
  | word _ | numeral _ | text _ | bytes | unit => true
  | present .misleading _ => false
  | present _ value => value.isPlain
  | list items | tuple _ items => itemsArePlain items
  | map entries => entriesArePlain entries
  | record _ members => membersArePlain members

/-- Whether all items can be passed over. -/
def itemsArePlain : List Term → Bool
  | [] => true
  | item :: rest => item.isPlain && itemsArePlain rest

/-- Whether all keys and values can be passed over. -/
def entriesArePlain : List (Term × Term) → Bool
  | [] => true
  | (key, value) :: rest => key.isPlain && value.isPlain && entriesArePlain rest

/-- Whether all members can be passed over. -/
def membersArePlain : List (String × Term) → Bool
  | [] => true
  | (_, value) :: rest => value.isPlain && membersArePlain rest

end

end Term

end Workflow
