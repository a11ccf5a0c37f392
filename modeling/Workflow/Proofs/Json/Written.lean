/-
This file proves that JSON text holds the tree it was written from.

The text of a tree is read as one value with nothing after it, namely the tree
itself: every string is made of the characters that were written, every container
ends properly, and every numeral keeps its digits, as long as these are proper.
-/

import Workflow.Json.Source
import Workflow.Json.Tree
import Workflow.Proofs.Number.Numeral

namespace Workflow

open Number Text

/-! ### Strings -/

namespace Tree

theorem hexUnit_of_lt {n : Nat} (small : n < 16) :
    hexUnit '0' '0' '0' (Nat.digitChar n) = some n ∧
      hexUnit '0' '0' '1' (Nat.digitChar n) = some (16 + n) := by
  interval_cases n <;> decide

/-- A control character is escaped as a code unit. -/
theorem exists_hexUnit_of_control {c : Char} (control : c.toNat < 32) :
    ∃ a b, hexUnit '0' '0' a b = some c.toNat ∧
      (if c.toNat < 16 then ['\\', 'u', '0', '0', '0'] ++ hexDigits c.toNat
        else ['\\', 'u', '0', '0'] ++ hexDigits c.toNat) = ['\\', 'u', '0', '0', a, b] := by
  by_cases small : c.toNat < 16
  · refine ⟨'0', Nat.digitChar c.toNat, (hexUnit_of_lt small).1, ?_⟩
    rw [if_pos small, hexDigits, Nat.toDigits_of_lt_base small]
    rfl
  · have isUnit := (hexUnit_of_lt (show c.toNat - 16 < 16 by omega)).2
    have quotient : c.toNat / 16 = 1 := by omega
    have remainder : c.toNat % 16 = c.toNat - 16 := by omega
    refine ⟨'1', Nat.digitChar (c.toNat - 16), ?_, ?_⟩
    · rw [isUnit]
      congr 1
      omega
    · rw [if_neg small, hexDigits, Nat.toDigits_eq_if (by decide), if_neg small, quotient,
        remainder]
      rfl

/-- A character is read as it is written. -/
theorem scanString_escaped (c : Char) (rest : List Char) :
    scanString (escaped c ++ rest) = withPiece (.char c) (scanString rest) := by
  by_cases short : c ∈ ['"', '\\', '\n', '\r', '\t', '\x08', '\x0c']
  · simp only [List.mem_cons, List.not_mem_nil, or_false] at short
    rcases short with rfl | rfl | rfl | rfl | rfl | rfl | rfl <;> rfl
  · simp only [List.mem_cons, List.not_mem_nil, or_false, not_or] at short
    obtain ⟨notQuote, notBackslash, notFeed, notReturn, notTab, notBack, notForm⟩ := short
    rw [escaped, if_neg notQuote, if_neg notBackslash, if_neg notFeed, if_neg notReturn,
      if_neg notTab, if_neg notBack, if_neg notForm]
    by_cases control : c.toNat < 32
    · obtain ⟨a, b, isUnit, written⟩ := exists_hexUnit_of_control control
      rw [if_pos control, written]
      have isChar : Piece.ofUnit c.toNat = .char c := by
        rw [Piece.ofUnit, if_neg, Char.ofNat_toNat]
        simp only [isHighHalf, isLowHalf, Bool.or_eq_true, Bool.and_eq_true, decide_eq_true_eq]
        omega
      show scanString ('\\' :: 'u' :: '0' :: '0' :: a :: b :: rest) = _
      rw [scanString, isUnit, ← isChar]
    · rw [if_neg control, if_neg (by omega)]
      show scanString (c :: rest) = _
      rw [scanString.eq_def]
      split <;> simp_all

/-- The pieces of a written string. -/
def pieces (text : String) : List Piece := text.toList.map .char

theorem scanString_append (text : List Char) (rest : List Char) :
    scanString (text.flatMap escaped ++ '"' :: rest) = .ok (text.map .char, rest) := by
  induction text with
  | nil => rfl
  | cons c text inductionHypothesis =>
    rw [List.flatMap_cons, List.append_assoc, scanString_escaped, inductionHypothesis]
    rfl

end Tree

theorem textOfPieces_map_char (text : List Char) : textOfPieces (text.map .char) = some text := by
  induction text with
  | nil => rfl
  | cons c text inductionHypothesis =>
    rw [List.map_cons, textOfPieces, inductionHypothesis]
    rfl

/-- The pieces of a written string make its text again. -/
theorem Source.textOf_pieces (text : String) : textOf (Tree.pieces text) = .ok text := by
  rw [textOf, Tree.pieces, textOfPieces_map_char]
  exact congrArg Except.ok (String.ofList_toList)

/-! ### Tokens -/

section Tokens

variable {rest : List Char}

theorem tokens_blank {c : Char} (isBlank : isJsonBlank c = true) :
    tokens (c :: rest) = tokens rest := by
  rw [tokens, if_pos isBlank]

theorem tokens_newLine (level : Nat) : tokens (Tree.newLine level ++ rest) = tokens rest := by
  have indented (width : Nat) : tokens (List.replicate width ' ' ++ rest) = tokens rest := by
    induction width with
    | zero => rfl
    | succ width inductionHypothesis =>
      rw [List.replicate_succ, List.cons_append, tokens_blank (by decide), inductionHypothesis]
  rw [Tree.newLine, List.cons_append, tokens_blank (by decide), indented]

theorem tokens_punctuation {c : Char} {token : Token} (isPunctuation : punctuation c = some token) :
    tokens (c :: rest) = token :: tokens rest := by
  have listed : c ∈ ['[', ']', '\x7b', '\x7d', ',', ':'] := by
    by_contra notListed
    simp only [List.mem_cons, List.not_mem_nil, or_false, not_or] at notListed
    simp [punctuation, notListed] at isPunctuation
  simp only [List.mem_cons, List.not_mem_nil, or_false] at listed
  have notBlank : ¬isJsonBlank c = true := by
    rcases listed with rfl | rfl | rfl | rfl | rfl | rfl <;> decide
  have notQuote : c ≠ '"' := by rcases listed with rfl | rfl | rfl | rfl | rfl | rfl <;> decide
  have notNumeral : ¬(c = '-' ∨ c.isDigit = true) := by
    rcases listed with rfl | rfl | rfl | rfl | rfl | rfl <;> decide
  rw [tokens, if_neg notBlank, if_neg notQuote, if_neg notNumeral, isPunctuation]

theorem tokens_stringChars (text : String) :
    tokens (Tree.stringChars text ++ rest) = .string (Tree.pieces text) :: tokens rest := by
  have scanned := Tree.scanString_append text.toList rest
  rw [Tree.stringChars, List.cons_append, List.append_assoc, List.singleton_append, tokens,
    if_neg (by decide), if_pos rfl]
  split
  · next found =>
    rw [scanned] at found
    cases found
    rfl
  · next found =>
    rw [scanned] at found
    cases found

theorem tokens_null : tokens ("null".toList ++ rest) = .null :: tokens rest := by
  show tokens ('n' :: 'u' :: 'l' :: 'l' :: rest) = _
  rw [tokens, if_neg (by decide), if_neg (by decide), if_neg (by decide)]
  rfl

theorem tokens_bool (value : Bool) :
    tokens ((if value then "true" else "false").toList ++ rest) = .bool value :: tokens rest := by
  cases value with
  | true =>
    show tokens ('t' :: 'r' :: 'u' :: 'e' :: rest) = _
    rw [tokens, if_neg (by decide), if_neg (by decide), if_neg (by decide)]
    rfl
  | false =>
    show tokens ('f' :: 'a' :: 'l' :: 's' :: 'e' :: rest) = _
    rw [tokens, if_neg (by decide), if_neg (by decide), if_neg (by decide)]
    rfl

theorem tokens_numeral {numeral : Numeral} (proper : numeral.Proper)
    (ends : StartsOutside continuesNumeral rest) :
    tokens (numeral.chars ++ rest) = .number numeral :: tokens rest := by
  have scanned := proper.scanNumeral_append ends
  obtain ⟨c, tail, isChars, opens⟩ := proper.exists_opening
  have notBlank : ¬isJsonBlank c = true := by
    intro isBlank
    simp only [isJsonBlank, Bool.or_eq_true, beq_iff_eq] at isBlank
    rcases isBlank with ((rfl | rfl) | rfl) | rfl <;> exact absurd opens (by decide)
  have notQuote : c ≠ '"' := by
    rintro rfl
    exact absurd opens (by decide)
  rw [isChars, List.cons_append] at scanned ⊢
  rw [tokens, if_neg notBlank, if_neg notQuote, if_pos opens]
  split
  · next found =>
    rw [scanned] at found
    cases found
    rfl
  · next found =>
    rw [scanned] at found
    cases found

end Tokens

/-! ### Trees -/

namespace Tree

mutual

/-- Every numeral of the tree is proper. -/
def Proper : Tree → Prop
  | number numeral => numeral.Proper
  | array items => ProperItems items
  | object members => ProperMembers members
  | null | bool _ | string _ => True

def ProperItems : List Tree → Prop
  | [] => True
  | item :: rest => item.Proper ∧ ProperItems rest

def ProperMembers : List (String × Tree) → Prop
  | [] => True
  | (_, value) :: rest => value.Proper ∧ ProperMembers rest

end

mutual

/-- What the text of the tree holds. -/
def source : Tree → Source
  | null => .null
  | bool value => .bool value
  | number numeral => .number numeral
  | string text => .string (pieces text)
  | array items => .array (itemSources items) none
  | object members => .object (memberSources members) none

def itemSources : List Tree → List Source
  | [] => []
  | item :: rest => item.source :: itemSources rest

def memberSources : List (String × Tree) → List (List Piece × Source)
  | [] => []
  | (key, value) :: rest => (pieces key, value.source) :: memberSources rest

end

theorem startsOutside_newLine (level : Nat) (rest : List Char) :
    StartsOutside continuesNumeral (newLine level ++ rest) :=
  startsOutside_cons (by decide) _

theorem startsOutside_prettyItems {rest : List Char} (level : Nat) (items : List Tree)
    (ends : StartsOutside continuesNumeral rest) :
    StartsOutside continuesNumeral (prettyItems level items ++ rest) := by
  cases items with
  | nil => exact ends
  | cons item items => exact startsOutside_cons (by decide) _

theorem startsOutside_prettyMembers {rest : List Char} (level : Nat)
    (members : List (String × Tree)) (ends : StartsOutside continuesNumeral rest) :
    StartsOutside continuesNumeral (prettyMembers level members ++ rest) := by
  cases members with
  | nil => exact ends
  | cons entry members => exact startsOutside_cons (by decide) _

/-- The text of a tree starts with a token other than the end of an array. -/
theorem ofTokens_firstItem {tree : Tree} (proper : tree.Proper) (frames : List Source.Frame)
    (level : Nat) {rest : List Char} (ends : StartsOutside continuesNumeral rest) :
    Source.ofTokens frames .firstItem (tokens (tree.prettyChars level ++ rest)) =
      Source.ofTokens (.array [] :: frames) .value (tokens (tree.prettyChars level ++ rest)) := by
  cases tree with
  | null =>
    rw [prettyChars, tokens_null]
    rfl
  | bool value =>
    rw [prettyChars, tokens_bool]
    rfl
  | number numeral =>
    rw [Proper] at proper
    rw [prettyChars, tokens_numeral proper ends]
    rfl
  | string text =>
    rw [prettyChars, tokens_stringChars]
    rfl
  | array items =>
    cases items with
    | nil =>
      show Source.ofTokens frames .firstItem (tokens ('[' :: ']' :: rest)) =
        Source.ofTokens (.array [] :: frames) .value (tokens ('[' :: ']' :: rest))
      rw [tokens_punctuation rfl]
      rfl
    | cons item items =>
      rw [prettyChars, List.cons_append, tokens_punctuation rfl]
      rfl
  | object members =>
    cases members with
    | nil =>
      show Source.ofTokens frames .firstItem (tokens ('\x7b' :: '\x7d' :: rest)) =
        Source.ofTokens (.array [] :: frames) .value (tokens ('\x7b' :: '\x7d' :: rest))
      rw [tokens_punctuation rfl]
      rfl
    | cons entry members =>
      rw [prettyChars, List.cons_append, tokens_punctuation rfl]
      rfl

end Tree

namespace Source

open Workflow.Tree

/-- Reads tokens from a state on. -/
def resume (state : State) (text : List Token) : Source × Bool := ofTokens state.1 state.2 text

mutual

/-- The text of a tree makes its value, whatever is still open around it. -/
theorem ofTokens_prettyChars (tree : Tree) (proper : tree.Proper) (frames : List Frame)
    (level : Nat) {rest : List Char} (ends : StartsOutside continuesNumeral rest) :
    ofTokens frames .value (tokens (tree.prettyChars level ++ rest)) =
      resume (give tree.source frames) (tokens rest) :=
  match tree with
  | .null => by
    rw [prettyChars, tokens_null]
    rfl
  | .bool value => by
    rw [prettyChars, tokens_bool]
    rfl
  | .number numeral => by
    rw [Proper] at proper
    rw [prettyChars, tokens_numeral proper ends]
    rfl
  | .string text => by
    rw [prettyChars, tokens_stringChars]
    rfl
  | .array [] => by
    show ofTokens frames .value (tokens ('[' :: ']' :: rest)) = _
    rw [tokens_punctuation rfl, tokens_punctuation rfl]
    rfl
  | .array (item :: items) => by
    rw [Proper, ProperItems] at proper
    have ending := startsOutside_newLine level (']' :: rest)
    have first := ofTokens_prettyChars item proper.1 (.array [] :: frames) (level + 1)
      (startsOutside_prettyItems (level + 1) items ending)
    have others := ofTokens_prettyItems items proper.2 frames [item.source] (level + 1) ending
    rw [prettyChars]
    simp only [List.cons_append, List.append_assoc, List.nil_append]
    rw [tokens_punctuation rfl, tokens_newLine]
    refine (ofTokens_firstItem proper.1 frames (level + 1)
      (startsOutside_prettyItems (level + 1) items ending)).trans (first.trans (others.trans ?_))
    rw [tokens_newLine, tokens_punctuation rfl]
    show resume (give (.array ((itemSources items).reverse ++ [item.source]).reverse none) frames)
      _ = _
    rw [List.reverse_append, List.reverse_reverse]
    rfl
  | .object [] => by
    show ofTokens frames .value (tokens ('\x7b' :: '\x7d' :: rest)) = _
    rw [tokens_punctuation rfl, tokens_punctuation rfl]
    rfl
  | .object ((key, value) :: members) => by
    rw [Proper, ProperMembers] at proper
    have ending := startsOutside_newLine level ('\x7d' :: rest)
    have first := ofTokens_prettyChars value proper.1 (.object [] (pieces key) :: frames)
      (level + 1) (startsOutside_prettyMembers (level + 1) members ending)
    have others := ofTokens_prettyMembers members proper.2 frames [(pieces key, value.source)]
      (level + 1) ending
    rw [prettyChars]
    simp only [List.cons_append, List.append_assoc, List.nil_append]
    rw [tokens_punctuation rfl, tokens_newLine, tokens_stringChars, tokens_punctuation rfl,
      tokens_blank (by decide)]
    refine first.trans (others.trans ?_)
    rw [tokens_newLine, tokens_punctuation rfl]
    show resume (give (.object ((memberSources members).reverse ++
      [(pieces key, value.source)]).reverse none) frames) _ = _
    rw [List.reverse_append, List.reverse_reverse]
    rfl

/-- The text of more items adds these to an array. -/
theorem ofTokens_prettyItems (items : List Tree) (proper : ProperItems items)
    (frames : List Frame) (before : List Source) (level : Nat) {rest : List Char}
    (ends : StartsOutside continuesNumeral rest) :
    ofTokens frames (.afterItem before) (tokens (prettyItems level items ++ rest)) =
      ofTokens frames (.afterItem ((itemSources items).reverse ++ before)) (tokens rest) :=
  match items with
  | [] => rfl
  | item :: items => by
    rw [ProperItems] at proper
    have first := ofTokens_prettyChars item proper.1 (.array before :: frames) level
      (startsOutside_prettyItems level items ends)
    have others := ofTokens_prettyItems items proper.2 frames (item.source :: before) level ends
    rw [prettyItems]
    simp only [List.cons_append, List.append_assoc]
    rw [tokens_punctuation rfl, tokens_newLine]
    refine first.trans (others.trans ?_)
    rw [itemSources, List.reverse_cons, List.append_assoc, List.singleton_append]

/-- The text of more members adds these to an object. -/
theorem ofTokens_prettyMembers (members : List (String × Tree)) (proper : ProperMembers members)
    (frames : List Frame) (before : List (List Piece × Source)) (level : Nat) {rest : List Char}
    (ends : StartsOutside continuesNumeral rest) :
    ofTokens frames (.afterMember before) (tokens (prettyMembers level members ++ rest)) =
      ofTokens frames (.afterMember ((memberSources members).reverse ++ before)) (tokens rest) :=
  match members with
  | [] => rfl
  | (key, value) :: members => by
    rw [ProperMembers] at proper
    have first := ofTokens_prettyChars value proper.1 (.object before (pieces key) :: frames) level
      (startsOutside_prettyMembers level members ends)
    have others := ofTokens_prettyMembers members proper.2 frames
      ((pieces key, value.source) :: before) level ends
    rw [prettyMembers]
    simp only [List.cons_append, List.append_assoc]
    rw [tokens_punctuation rfl, tokens_newLine, tokens_stringChars, tokens_punctuation rfl,
      tokens_blank (by decide)]
    refine first.trans (others.trans ?_)
    rw [memberSources, List.reverse_cons, List.append_assoc, List.singleton_append]

end

/-- The text of a proper tree is read as this tree, with nothing after it. -/
theorem read_pretty {tree : Tree} (proper : tree.Proper) :
    read tree.pretty.toList = (tree.source, false) := by
  have ended : StartsOutside continuesNumeral [] := fun c isHead => by cases isHead
  have whole := ofTokens_prettyChars tree proper [] 0 ended
  rw [List.append_nil] at whole
  rw [read, Tree.pretty, String.toList_ofList, whole, tokens]
  rfl

end Source

end Workflow
