/-
This file holds maps that remember the order in which their keys were first
inserted. Writing to a key that is present replaces its value in place; erasing a
key keeps the order of the others.
-/

namespace Workflow

/-- A map as the list of its entries, in order. -/
structure OrderedMap (Key Value : Type) where
  entries : List (Key × Value) := []

namespace OrderedMap

variable {Key Value : Type} [DecidableEq Key]

/-- The entries with one entry replaced in place, or added at the end. -/
def insertEntry (key : Key) (value : Value) : List (Key × Value) → List (Key × Value)
  | [] => [(key, value)]
  | (other, old) :: rest =>
    if other = key then (key, value) :: rest else (other, old) :: insertEntry key value rest

/-- The map with a value under a key. -/
def insert (map : OrderedMap Key Value) (key : Key) (value : Value) : OrderedMap Key Value :=
  ⟨insertEntry key value map.entries⟩

/-- The map without a key. -/
def erase (map : OrderedMap Key Value) (key : Key) : OrderedMap Key Value :=
  ⟨map.entries.filter fun entry => entry.1 ≠ key⟩

/-- The value under a key. -/
def get? (map : OrderedMap Key Value) (key : Key) : Option Value :=
  (map.entries.find? fun entry => entry.1 = key).map (·.2)

/-- Whether a key is present. -/
def contains (map : OrderedMap Key Value) (key : Key) : Bool := (map.get? key).isSome

/-- The keys, in order. -/
def keys (map : OrderedMap Key Value) : List Key := map.entries.map (·.1)

/-- The values, in order of their keys. -/
def values (map : OrderedMap Key Value) : List Value := map.entries.map (·.2)

/-- The map with every value changed by a function. -/
def mapValues (change : Value → Value) (map : OrderedMap Key Value) : OrderedMap Key Value :=
  ⟨map.entries.map fun (key, value) => (key, change value)⟩

/-- The map with the value under one key changed by a function. -/
def modify (map : OrderedMap Key Value) (key : Key) (change : Value → Value) :
    OrderedMap Key Value :=
  ⟨map.entries.map fun (other, value) => (other, if other = key then change value else value)⟩

/-- The map of entries inserted one after the other. -/
def ofList (entries : List (Key × Value)) : OrderedMap Key Value :=
  entries.foldl (fun map (key, value) => map.insert key value) {}

end OrderedMap

end Workflow
