/-
This file reads JSON text into a source tree.

A source tree keeps what a text holds up to its first flaw: a container that the
flaw cuts short remembers it, and so does the place of a value that is not there.
Readers walk the tree in the order of the text, so the first problem they meet is
the first one of the text, be it in the form or in the shape.

Values are read strictly: strings pair up their surrogate halves, numbers are in
range, and containers nest at most 127 deep. Parts that nobody asks for are only
skimmed, which checks none of this; the end of the text inside a number is then a
bad number.
-/

import Workflow.Json.Token
import Workflow.Number.Stepwise

namespace Workflow

open Number

/-- What a text holds. A container ends properly or is cut short by a flaw. -/
inductive Source where
  | null
  | bool (value : Bool)
  | number (numeral : Numeral)
  | string (pieces : List Piece)
  | array (items : List Source) (ending : Option Flaw)
  | object (members : List (List Piece × Source)) (ending : Option Flaw)
  | missing (flaw : Flaw)

namespace Source

/-- A container that is still open around the value being read, with what it holds so far in
reverse. -/
inductive Frame where
  | array (items : List Source)
  | object (members : List (List Piece × Source)) (key : List Piece)

/-- What comes next in a text. Items and members so far are in reverse. -/
inductive Phase where
  | value
  | firstItem
  | afterItem (items : List Source)
  | firstKey
  | nextKey (members : List (List Piece × Source))
  | colon (members : List (List Piece × Source)) (key : List Piece)
  | afterMember (members : List (List Piece × Source))
  | done (value : Source)

/-- The state of a reader: the open containers, innermost first, and what comes next. -/
abbrev State := List Frame × Phase

/-- Puts a value where the innermost open container awaits it. -/
def give (value : Source) : List Frame → State
  | [] => ([], .done value)
  | .array items :: frames => (frames, .afterItem (value :: items))
  | .object members key :: frames => (frames, .afterMember ((key, value) :: members))

/-- Closes every open container because of a flaw. -/
def abandon (flaw : Flaw) (value : Source) : List Frame → Source
  | [] => value
  | .array items :: frames => abandon flaw (array (value :: items).reverse (some flaw)) frames
  | .object members key :: frames =>
    abandon flaw (object ((key, value) :: members).reverse (some flaw)) frames

/-- The tree when a flaw stands where a phase awaits something. -/
def stop (flaw : Flaw) (frames : List Frame) : Phase → Source
  | .value => abandon flaw (missing flaw) frames
  | .firstItem => abandon flaw (array [] (some flaw)) frames
  | .afterItem items => abandon flaw (array items.reverse (some flaw)) frames
  | .firstKey => abandon flaw (object [] (some flaw)) frames
  | .nextKey members => abandon flaw (object members.reverse (some flaw)) frames
  | .colon members key =>
    abandon flaw (object ((key, missing flaw) :: members).reverse (some flaw)) frames
  | .afterMember members => abandon flaw (object members.reverse (some flaw)) frames
  | .done value => value

/-- The tree when a token stands where a phase awaits another one. -/
def reject (frames : List Frame) (phase : Phase) : Source ⊕ State :=
  .inl (stop (.ofProblem .malformed) frames phase)

/-- Reads a token where a value may start. -/
def startValue (frames : List Frame) : Token → Source ⊕ State
  | .null => .inr (give null frames)
  | .bool value => .inr (give (bool value) frames)
  | .number numeral => .inr (give (number numeral) frames)
  | .string pieces => .inr (give (string pieces) frames)
  | .beginArray => .inr (frames, .firstItem)
  | .beginObject => .inr (frames, .firstKey)
  | .brokenString flaw | .broken flaw => .inl (stop flaw frames .value)
  | .endArray | .endObject | .comma | .colon => reject frames .value

/-- Reads one token; the result is a new state, or the tree if the token is a flaw. -/
def step (frames : List Frame) (phase : Phase) (token : Token) : Source ⊕ State :=
  match phase, token with
  | .value, token => startValue frames token
  | .firstItem, .endArray => .inr (give (array [] none) frames)
  | .firstItem, token => startValue (.array [] :: frames) token
  | .afterItem items, .comma => .inr (.array items :: frames, .value)
  | .afterItem items, .endArray => .inr (give (array items.reverse none) frames)
  | .firstKey, .endObject => .inr (give (object [] none) frames)
  | .firstKey, .string key => .inr (frames, .colon [] key)
  | .firstKey, .brokenString flaw => .inl (stop flaw frames .firstKey)
  | .nextKey members, .string key => .inr (frames, .colon members key)
  | .nextKey members, .brokenString flaw => .inl (stop flaw frames (.nextKey members))
  | .colon members key, .colon => .inr (.object members key :: frames, .value)
  | .afterMember members, .comma => .inr (frames, .nextKey members)
  | .afterMember members, .endObject => .inr (give (object members.reverse none) frames)
  | phase, _ => reject frames phase

/-- Reads tokens to the end of the first value. The tree comes with the answer whether more tokens
follow the value. -/
def ofTokens (frames : List Frame) (phase : Phase) : List Token → Source × Bool
  | [] => (stop (.ofProblem .unfinished) frames phase, false)
  | token :: rest =>
    match phase with
    | .done value => (value, true)
    | phase =>
      match step frames phase token with
      | .inl tree => (tree, false)
      | .inr (frames, phase) => ofTokens frames phase rest

/-- The tree of a text, and whether more than blanks follow its value. -/
def read (text : List Char) : Source × Bool := ofTokens [] .value (tokens text)

/-- How deep containers may nest. -/
def depthLimit : Nat := 127

/-- The text of a strictly read string. -/
def textOf (pieces : List Piece) : Except Problem String :=
  match textOfPieces pieces with
  | some text => .ok (String.ofList text)
  | none => .error .malformed

/-- Succeeds where a container ends properly. -/
def finish : Option Flaw → Except Problem Unit
  | none => .ok ()
  | some flaw => .error flaw.strict

mutual

/-- Reads a value strictly, with room for so many more levels of containers. -/
def value (room : Nat) : Source → Except Problem Json
  | null => .ok .null
  | bool value => .ok (.bool value)
  | number numeral =>
    match numeral.value? with
    | some found => .ok (.ofNumber found)
    | none => .error .malformed
  | string pieces => (textOf pieces).map .string
  | array items ending =>
    if room = 0 then .error .malformed
    else do
      let values ← itemValues (room - 1) items
      finish ending
      .ok (.array values)
  | object members ending =>
    if room = 0 then .error .malformed
    else do
      let values ← memberValues (room - 1) members
      finish ending
      .ok (.object (Object.ofList values))
  | missing flaw => .error flaw.strict

/-- Reads the items of an array. -/
def itemValues (room : Nat) : List Source → Except Problem (List Json)
  | [] => .ok []
  | item :: rest => do
    let first ← item.value room
    let others ← itemValues room rest
    .ok (first :: others)

/-- Reads the members of an object in the order of the text. -/
def memberValues (room : Nat) : List (List Piece × Source) → Except Problem (List (String × Json))
  | [] => .ok []
  | (pieces, item) :: rest => do
    let key ← textOf pieces
    let first ← item.value room
    let others ← memberValues room rest
    .ok ((key, first) :: others)

end

/-- Succeeds where a skimmed container ends properly. -/
def skimEnding : Option Flaw → Except Problem Unit
  | none => .ok ()
  | some flaw => .error flaw.skimmed

mutual

/-- Looks only for a flaw. -/
def skim : Source → Except Problem Unit
  | array items ending => do
    skimItems items
    skimEnding ending
  | object members ending => do
    skimMembers members
    skimEnding ending
  | missing flaw => .error flaw.skimmed
  | null | bool _ | number _ | string _ => .ok ()

def skimItems : List Source → Except Problem Unit
  | [] => .ok ()
  | item :: rest => do
    item.skim
    skimItems rest

def skimMembers : List (List Piece × Source) → Except Problem Unit
  | [] => .ok ()
  | (_, item) :: rest => do
    item.skim
    skimMembers rest

end

/-- The problem of a value that is not of the kind a reader wants. A scalar is read before its kind
counts, a container is not. -/
def mismatch : Source → Problem
  | number numeral => if numeral.value?.isSome then .misshapen else .malformed
  | string pieces => if (textOfPieces pieces).isSome then .misshapen else .malformed
  | missing flaw => flaw.strict
  | null | bool _ | array .. | object .. => .misshapen

end Source

/-- Reads a text that is one value. -/
def Json.parse (text : String) : Except Problem Json := do
  let (tree, trailing) := Source.read text.toList
  let value ← tree.value Source.depthLimit
  if trailing then .error .malformed else .ok value

end Workflow
