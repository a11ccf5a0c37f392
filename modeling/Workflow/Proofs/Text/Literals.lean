/-
This file proves that string literals in a row are read as what they were made from, and
that scanning a text passes over them as over one unit.

Reading literals and scanning a text are two recursions that tell apart on their own
which character ends a literal. They agree on every text, whether or not it was written as
a row of literals: one is read just if it holds a character that is no blank, its scan ends
outside literals at the depth at which it began, and only blanks stand outside literals.
Separators, brackets, comments and assignments are then out of reach, and it remains that
what a row was made from is read back.
-/

import Workflow.Proofs.Text.Word

namespace Workflow.Text

/-! ### Reading and scanning -/

/-- From this scan on only blanks stand outside literals, and the text ends outside literals at
this depth. -/
structure LiteralsOnly (scan : Scan) (depth : Int) (text : List Char) : Prop where
  ends : scan.run text = .outside depth
  blank : ∀ entry ∈ marked scan text, entry.2.isSome = true → isBlank entry.1 = true

section Steps

variable {scan : Scan} {depth : Int} {c : Char}

theorem literalsOnly_cons_iff {rest : List Char} :
    LiteralsOnly scan depth (c :: rest) ↔
      ((scan.mark c).isSome = true → isBlank c = true) ∧
        LiteralsOnly (scan.step c) depth rest := by
  constructor
  · rintro ⟨ends, blank⟩
    obtain ⟨first, others⟩ := List.forall_mem_cons.1 blank
    exact ⟨first, ends, others⟩
  · rintro ⟨first, ends, others⟩
    exact ⟨ends, List.forall_mem_cons.2 ⟨first, others⟩⟩

theorem literalsOnly_cons_of_isBlank (blank : isBlank c = true) (rest : List Char) :
    LiteralsOnly (.outside depth) depth (c :: rest) ↔
      LiteralsOnly (.outside depth) depth rest := by
  rw [literalsOnly_cons_iff, step_of_isPlain depth (isPlain_of_isBlank blank)]
  exact and_iff_right fun _ => blank

theorem literalsOnly_cons_of_isQuote (quotes : isQuote c = true) (rest : List Char) :
    LiteralsOnly (.outside depth) depth (c :: rest) ↔
      LiteralsOnly (.inside c false depth) depth rest := by
  rw [literalsOnly_cons_iff, step_of_isQuote depth quotes, mark_of_isQuote depth quotes]
  exact and_iff_right nofun

theorem literalsOnly_inside_cons {quote : Char} {escaped : Bool} {level : Int}
    (rest : List Char) :
    LiteralsOnly (.inside quote escaped level) depth (c :: rest) ↔
      LiteralsOnly ((Scan.inside quote escaped level).step c) depth rest := by
  rw [literalsOnly_cons_iff]
  exact and_iff_right nofun

end Steps

mutual

/-- Between literals a text is read just if the scan sees nothing but literals and blanks, and one
literal at least was read or is to come. -/
theorem isSome_unquoteBetween_iff (depth : Int) (found : Bool) (text : List Char) :
    (unquoteBetween found text).isSome = true ↔
      LiteralsOnly (.outside depth) depth text ∧
        (found = true ∨ ∃ c ∈ text, isBlank c = false) := by
  match text with
  | [] =>
    have empty : LiteralsOnly (.outside depth) depth [] := ⟨rfl, List.forall_mem_nil _⟩
    cases found <;> simp [unquoteBetween, empty]
  | c :: rest =>
    rw [unquoteBetween]
    cases blank : isBlank c with
    | true =>
      rw [if_pos rfl, literalsOnly_cons_of_isBlank blank,
        isSome_unquoteBetween_iff depth found rest]
      simp [blank]
    | false =>
      rw [if_neg Bool.false_ne_true]
      cases quotes : isQuote c with
      | true =>
        rw [if_pos rfl, literalsOnly_cons_of_isQuote quotes, isSome_unquoteWithin_iff depth c rest]
        simp [blank]
      | false =>
        -- Anything else ends the reading, and it stands outside literals without being a blank.
        have stands : ((Scan.outside depth).mark c).isSome = true := by
          rw [Scan.mark, quotes]
          cases isCloser c <;> rfl
        rw [literalsOnly_cons_iff]
        simp [blank, stands]
termination_by text.length

/-- Inside a literal a text is read just if the scan leaves it and sees nothing but literals and
blanks from there on. -/
theorem isSome_unquoteWithin_iff (depth : Int) (quote : Char) (text : List Char) :
    (unquoteWithin quote text).isSome = true ↔
      LiteralsOnly (.inside quote false depth) depth text := by
  match text with
  | [] => exact ⟨nofun, fun only => nomatch only.ends⟩
  | c :: rest =>
    by_cases backslash : c = '\\'
    · subst backslash
      match rest with
      | [] => exact ⟨nofun, fun only => nomatch only.ends⟩
      | escaped :: others =>
        -- Both take the character behind a backslash along without looking at it.
        have waits : (Scan.inside quote false depth).step '\\' = .inside quote true depth := rfl
        rw [unquoteWithin, Option.isSome_map, literalsOnly_inside_cons, waits,
          literalsOnly_inside_cons, isSome_unquoteWithin_iff depth quote others]
        exact Iff.rfl
    · rw [unquoteWithin_cons backslash, literalsOnly_inside_cons]
      by_cases closes : c = quote
      · subst closes
        rw [if_pos rfl, step_inside_self depth backslash, isSome_unquoteBetween_iff depth true rest]
        exact and_iff_left (.inl rfl)
      · rw [if_neg closes, Option.isSome_map, step_inside_of_ne depth backslash closes,
          isSome_unquoteWithin_iff depth quote rest]
termination_by text.length

end

/-- A text is read just if it is made of literals, with blanks around them. -/
theorem isSome_unquote_iff (text : List Char) :
    (unquote text).isSome = true ↔
      LiteralsOnly .start 0 text ∧ ∃ c ∈ text, isBlank c = false := by
  rw [unquote, isSome_unquoteBetween_iff 0 false text]
  simp [Scan.start]

/-! ### What passes over literals -/

namespace LiteralsOnly

variable {text : List Char} (only : LiteralsOnly .start 0 text)
include only

/-- A visible character stands in literals only. -/
theorem notMem_marked {c : Char} (visible : isBlank c = false) (depth : Int) :
    (c, some depth) ∉ marked .start text := by
  intro member
  have blank : isBlank c = true := only.blank (c, some depth) member rfl
  exact Bool.false_ne_true (visible.symm.trans blank)

theorem bracketDelta_eq_zero : bracketDelta text = 0 := congrArg Scan.depth only.ends

theorem stripComment_eq : stripComment text = text :=
  stripComment_eq_self (uncommented_of_start fun depth => only.notMem_marked rfl depth)

theorem cutAssign_eq_none : cutAssign text = none :=
  cutAssignMarked_eq_none (only.notMem_marked rfl 0) ' '

theorem splitTopLevel_eq {separator : Char} (visible : isBlank separator = false) :
    splitTopLevel separator text = [trim text] :=
  splitTopLevel_of_undivided (undivided_of_start (only.notMem_marked visible 0))

end LiteralsOnly

/-! ### Literals in a row -/

/-- A literal: a text, and the quote that encloses it. -/
structure Literal where
  quote : Quote
  content : List Char

namespace Literal

variable (literal : Literal)

def text : List Char := literal.quote.literal literal.content

theorem head?_text : literal.text.head? = some literal.quote.char := rfl

theorem getLast?_text : literal.text.getLast? = some literal.quote.char := by
  rw [text, Quote.literal, ← List.cons_append, List.getLast?_concat]

end Literal

/-- A literal behind blanks, if any. -/
structure SpacedLiteral extends Literal where
  blanks : List Char
  isBlank_of_mem : ∀ c ∈ blanks, isBlank c = true

namespace SpacedLiteral

def text (spaced : SpacedLiteral) : List Char := spaced.blanks ++ spaced.toLiteral.text

end SpacedLiteral

/-- Literals in a row: a first one, and further ones with the blanks in front of each. -/
structure LiteralRow where
  first : Literal
  further : List SpacedLiteral

theorem unquoteBetween_blanks_append {blanks : List Char}
    (blank : ∀ c ∈ blanks, isBlank c = true) (found : Bool) (rest : List Char) :
    unquoteBetween found (blanks ++ rest) = unquoteBetween found rest := by
  induction blanks with
  | nil => rfl
  | cons c others inductionHypothesis =>
    obtain ⟨first, others⟩ := List.forall_mem_cons.1 blank
    rw [List.cons_append, unquoteBetween, if_pos first, inductionHypothesis others]

theorem unquoteBetween_text_append (spaced : SpacedLiteral) (found : Bool) (rest : List Char) :
    unquoteBetween found (spaced.text ++ rest) =
      (unquoteBetween true rest).map (spaced.content ++ ·) := by
  rw [SpacedLiteral.text, List.append_assoc, unquoteBetween_blanks_append spaced.isBlank_of_mem,
    Literal.text, Quote.unquoteBetween_literal_append]

namespace LiteralRow

variable (row : LiteralRow)

def text : List Char := row.first.text ++ row.further.flatMap SpacedLiteral.text

/-- What the literals were made from, one behind the other. -/
def content : List Char := row.first.content ++ row.further.flatMap fun spaced => spaced.content

theorem unquote_text : unquote row.text = some row.content := by
  have further : unquoteBetween true (row.further.flatMap SpacedLiteral.text) =
      some (row.further.flatMap fun spaced => spaced.content) := by
    induction row.further with
    | nil => rfl
    | cons spaced others inductionHypothesis =>
      rw [List.flatMap_cons, unquoteBetween_text_append, inductionHypothesis]
      rfl
  rw [unquote, text, Literal.text, Quote.unquoteBetween_literal_append, further]
  rfl

theorem literalsOnly_text : LiteralsOnly .start 0 row.text :=
  ((isSome_unquote_iff row.text).1 (Option.isSome_of_mem row.unquote_text)).1

theorem exists_text_eq_append : ∃ front literal, row.text = front ++ Literal.text literal := by
  rcases List.eq_nil_or_concat row.further with none | ⟨others, last, ends⟩
  · exact ⟨[], row.first, by rw [text, none]; exact List.append_nil _⟩
  · refine ⟨row.first.text ++ others.flatMap SpacedLiteral.text ++ last.blanks,
      last.toLiteral, ?_⟩
    rw [text, ends, List.concat_eq_append, List.flatMap_append, List.flatMap_singleton,
      SpacedLiteral.text, List.append_assoc, List.append_assoc]

/-- A row starts and ends with a quote. -/
theorem trim_text : trim row.text = row.text := by
  refine trim_eq_self (fun c isFirst => ?_) fun c isLast => ?_
  · rw [text, List.head?_append, Literal.head?_text] at isFirst
    exact Option.some.inj isFirst ▸ Quote.isBlank_char _
  · obtain ⟨front, literal, ends⟩ := row.exists_text_eq_append
    rw [ends, List.getLast?_append, Literal.getLast?_text] at isLast
    exact Option.some.inj isLast ▸ Quote.isBlank_char _

/-- A row of literals is read as what it was made from, and to every scan it is one unit. -/
theorem sealed_text :
    unquote row.text = some row.content ∧
      (∀ separator, isPlain separator = true → isBlank separator = false →
        splitTopLevel separator row.text = [row.text]) ∧
      bracketDelta row.text = 0 ∧
      stripComment row.text = row.text ∧
      cutAssign row.text = none := by
  have only := row.literalsOnly_text
  refine ⟨row.unquote_text, fun separator _ visible => ?_, only.bracketDelta_eq_zero,
    only.stripComment_eq, only.cutAssign_eq_none⟩
  rw [only.splitTopLevel_eq visible, row.trim_text]

/-- Marks, both quotes, a line feed and a last backslash in three literals, of which the last is
empty and two touch each other. -/
theorem sealed_text_marks :
    let row : LiteralRow :=
      { first := ⟨.double, "a, '#' = [\\".toList⟩
        further := [⟨⟨.single, "\n'\"\x7d".toList⟩, [], nofun⟩,
          ⟨⟨.double, []⟩, " \t".toList, List.all_eq_true.1 rfl⟩] }
    row.text = "\"a, '#' = [\\\\\"'\\n\\'\"\x7d' \t\"\"".toList ∧
      isPlain ',' = true ∧ isBlank ',' = false ∧
      unquote row.text = some "a, '#' = [\\\n'\"\x7d".toList ∧
      splitTopLevel ',' row.text = [row.text] ∧
      bracketDelta row.text = 0 ∧
      stripComment row.text = row.text ∧
      cutAssign row.text = none := by
  intro row
  obtain ⟨read, single, level, uncommented, unassigned⟩ := sealed_text row
  exact ⟨by decide, rfl, rfl, read, single ',' rfl rfl, level, uncommented, unassigned⟩

end LiteralRow

end Workflow.Text
