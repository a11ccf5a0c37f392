/-
This file proves how texts are scanned and read that stand inside larger ones: that
marks do not depend on the depth at which a scan starts, that everything in a literal
is beyond the reach of brackets, separators and comments, and that a literal is read
as what it was made from.
-/

import Mathlib.Data.List.TakeWhile
import Workflow.Proofs.Text.Split
import Workflow.Text.Literal

namespace Workflow.Text

/-! ### Scans that start deeper -/

/-- The scan so many brackets deeper. -/
def Scan.deeper (levels : Int) : Scan → Scan
  | outside depth => outside (depth + levels)
  | inside quote escaped depth => inside quote escaped (depth + levels)

section Deeper

variable (levels : Int)

theorem step_deeper (scan : Scan) (c : Char) :
    (scan.deeper levels).step c = (scan.step c).deeper levels := by
  cases scan with
  | outside depth =>
    simp only [Scan.deeper, Scan.step]
    split
    · rfl
    · split
      · exact congrArg Scan.outside (by omega)
      · split
        · exact congrArg Scan.outside (by omega)
        · rfl
  | inside quote escaped depth =>
    show (if escaped = true then _ else _) = Scan.deeper levels (if escaped = true then _ else _)
    split
    · rfl
    · split
      · rfl
      · split <;> rfl

theorem mark_deeper (scan : Scan) (c : Char) :
    (scan.deeper levels).mark c = (scan.mark c).map (· + levels) := by
  cases scan with
  | outside depth =>
    simp only [Scan.deeper, Scan.mark]
    split
    · rfl
    · split
      · exact congrArg some (show depth + levels - 1 = depth - 1 + levels by omega)
      · rfl
  | inside quote escaped depth => rfl

theorem run_deeper (scan : Scan) (text : List Char) :
    (scan.deeper levels).run text = (scan.run text).deeper levels := by
  induction text generalizing scan with
  | nil => rfl
  | cons c rest inductionHypothesis =>
    show ((scan.deeper levels).step c).run rest = _
    rw [step_deeper, inductionHypothesis]
    rfl

theorem marked_deeper (scan : Scan) (text : List Char) :
    marked (scan.deeper levels) text =
      (marked scan text).map fun entry => (entry.1, entry.2.map (· + levels)) := by
  induction text generalizing scan with
  | nil => rfl
  | cons c rest inductionHypothesis =>
    rw [marked, step_deeper, inductionHypothesis, mark_deeper]
    rfl

end Deeper

theorem outside_eq_deeper (depth : Int) : Scan.outside depth = Scan.start.deeper depth :=
  congrArg Scan.outside (Int.zero_add depth).symm

/-- A text is balanced if it is when it stands alone. -/
theorem balanced_of_start {text : List Char} (closed : Scan.start.run text = .start)
    (matched : ∀ entry ∈ marked .start text, ∀ depth ∈ entry.2, 0 ≤ depth) : Balanced text where
  ends depth := by rw [outside_eq_deeper, run_deeper, closed]
  above depth entry member mark isMark := by
    rw [outside_eq_deeper, marked_deeper] at member
    obtain ⟨first, isFirst, rfl⟩ := List.mem_map.1 member
    obtain ⟨low, isLow, rfl⟩ := Option.map_eq_some_iff.1 isMark
    have := matched first isFirst low isLow
    omega

theorem undivided_of_start {separator : Char} {text : List Char}
    (undivided : (separator, some 0) ∉ marked .start text) : Undivided separator text := by
  intro depth member
  rw [outside_eq_deeper, marked_deeper] at member
  obtain ⟨⟨c, mark⟩, isFirst, same⟩ := List.mem_map.1 member
  obtain ⟨rfl, isMark⟩ := Prod.mk.inj same
  obtain ⟨low, rfl, isLow⟩ := Option.map_eq_some_iff.1 isMark
  obtain rfl : low = 0 := by omega
  exact undivided isFirst

/-! ### Comments -/

/-- No comment starts in the text. -/
def Uncommented (text : List Char) : Prop :=
  ∀ depth mark, ('#', some mark) ∉ marked (.outside depth) text

theorem uncommented_of_start {text : List Char}
    (uncommented : ∀ mark, ('#', some mark) ∉ marked .start text) : Uncommented text := by
  intro depth mark member
  rw [outside_eq_deeper, marked_deeper] at member
  obtain ⟨⟨c, low?⟩, isFirst, same⟩ := List.mem_map.1 member
  obtain ⟨rfl, isMark⟩ := Prod.mk.inj same
  obtain ⟨low, rfl, -⟩ := Option.map_eq_some_iff.1 isMark
  exact uncommented low isFirst

theorem uncommented_of_notMem {text : List Char} (absent : '#' ∉ text) : Uncommented text := by
  intro depth mark member
  refine absent ?_
  rw [← map_fst_marked (.outside depth) text]
  exact List.mem_map_of_mem member

theorem Uncommented.append {before after : List Char} (balanced : Balanced before)
    (first : Uncommented before) (second : Uncommented after) : Uncommented (before ++ after) := by
  intro depth mark member
  rw [marked_append, balanced.ends] at member
  rcases List.mem_append.1 member with inFirst | inSecond
  · exact first depth mark inFirst
  · exact second depth mark inSecond

theorem Uncommented.enclosed {opening closing : Char} {inner : List Char}
    (opens : isOpener opening = true) (closes : isCloser closing = true)
    (balanced : Balanced inner) (uncommented : Uncommented inner) :
    Uncommented (opening :: (inner ++ [closing])) := by
  intro depth mark member
  rw [marked_enclosed opens closes balanced] at member
  simp only [List.mem_cons, List.mem_append, List.not_mem_nil, or_false] at member
  obtain same | inside | same := member
  · obtain rfl := congrArg Prod.fst same
    cases opens
  · exact uncommented (depth + 1) mark inside
  · obtain rfl := congrArg Prod.fst same
    cases closes

theorem stripComment_eq_self {text : List Char} (uncommented : Uncommented text) :
    stripComment text = text := by
  rw [stripComment, List.takeWhile_eq_self_iff.2, map_fst_marked]
  rintro ⟨c, mark⟩ member
  cases mark with
  | none => simp
  | some mark =>
    have apart : c ≠ '#' := by
      rintro rfl
      exact uncommented 0 mark member
    simp [apart]

/-! ### Literals -/

/-- Without a backslash in front, only the quote itself ends a literal. -/
theorem unquoteWithin_cons {quote c : Char} (notBackslash : c ≠ '\\') (rest : List Char) :
    unquoteWithin quote (c :: rest) =
      if c = quote then unquoteBetween true rest else (unquoteWithin quote rest).map (c :: ·) := by
  rw [unquoteWithin.eq_def]
  split <;> simp_all

/-- The quotes that enclose literals. -/
inductive Quote where
  | single
  | double

namespace Quote

def char : Quote → Char
  | single => '\''
  | double => '"'

/-- A character inside a literal: backslashes, line feeds and the quote itself are escaped. -/
def escaped (quote : Quote) (c : Char) : List Char :=
  if c = '\\' ∨ c = quote.char then ['\\', c] else if c = '\n' then ['\\', 'n'] else [c]

/-- The literal of a text. -/
def literal (quote : Quote) (content : List Char) : List Char :=
  quote.char :: (content.flatMap quote.escaped ++ [quote.char])

variable (quote : Quote)

theorem isQuote_char : isQuote quote.char = true := by cases quote <;> rfl

theorem char_ne_backslash : quote.char ≠ '\\' := ne_backslash_of_isQuote quote.isQuote_char

theorem isBlank_char : isBlank quote.char = false := by cases quote <;> rfl

/-- An escaped character leaves a scan inside the literal. -/
theorem run_escaped (c : Char) (depth : Int) :
    (Scan.inside quote.char false depth).run (quote.escaped c) =
      .inside quote.char false depth := by
  rw [escaped]
  split
  · rfl
  · next plain =>
    obtain ⟨notBackslash, notQuote⟩ := not_or.1 plain
    split
    · rfl
    · exact step_inside_of_ne depth notBackslash notQuote

theorem run_escapedAll (content : List Char) (depth : Int) :
    (Scan.inside quote.char false depth).run (content.flatMap quote.escaped) =
      .inside quote.char false depth := by
  induction content with
  | nil => rfl
  | cons c rest inductionHypothesis =>
    rw [List.flatMap_cons, run_append, run_escaped, inductionHypothesis]

theorem run_literal (content : List Char) (depth : Int) :
    (Scan.outside depth).run (quote.literal content) = .outside depth := by
  show ((Scan.outside depth).step quote.char).run
    (content.flatMap quote.escaped ++ [quote.char]) = _
  rw [step_of_isQuote depth quote.isQuote_char, run_append, run_escapedAll]
  exact step_inside_self depth quote.char_ne_backslash

/-- Inside a literal nothing has a depth. -/
theorem mark_escaped (c : Char) (depth : Int) :
    ∀ entry ∈ marked (.inside quote.char false depth) (quote.escaped c), entry.2 = none := by
  rw [escaped]
  split
  · simp [marked, Scan.mark, Scan.step]
  · split <;> simp [marked, Scan.mark, Scan.step]

theorem mark_literal (content : List Char) (depth : Int) :
    ∀ entry ∈ marked (.outside depth) (quote.literal content), entry.2 = none := by
  rw [literal, marked, step_of_isQuote depth quote.isQuote_char, marked_append, run_escapedAll,
    mark_of_isQuote depth quote.isQuote_char, List.forall_mem_cons, List.forall_mem_append]
  refine ⟨rfl, ?_, List.forall_mem_singleton.2 rfl⟩
  induction content with
  | nil => exact List.forall_mem_nil _
  | cons c rest inductionHypothesis =>
    rw [List.flatMap_cons, marked_append, run_escaped, List.forall_mem_append]
    exact ⟨mark_escaped quote c depth, inductionHypothesis⟩

theorem balanced_literal (content : List Char) : Balanced (quote.literal content) where
  ends := run_literal quote content
  above depth entry member mark isMark := by
    rw [mark_literal quote content depth entry member] at isMark
    cases isMark

theorem uncommented_literal (content : List Char) : Uncommented (quote.literal content) := by
  intro depth mark member
  cases mark_literal quote content depth _ member

/-- A literal stays on its line. -/
theorem notMem_literal (content : List Char) : '\n' ∉ quote.literal content := by
  have apart : '\n' ≠ quote.char := by cases quote <;> decide
  have each (c : Char) : '\n' ∉ quote.escaped c := by
    rw [escaped]
    split
    · next special =>
      have other : '\n' ≠ c := by
        rcases special with rfl | rfl
        · decide
        · exact apart
      simp [other]
    · split
      · decide
      · next other => exact fun member => other (List.mem_singleton.1 member).symm
  intro member
  rcases List.mem_cons.1 member with same | inRest
  · exact apart same
  · rcases List.mem_append.1 inRest with inContent | isLast
    · obtain ⟨c, -, isPart⟩ := List.mem_flatMap.1 inContent
      exact each c isPart
    · exact apart (List.mem_singleton.1 isLast)

theorem unquoteWithin_escaped (c : Char) (rest : List Char) :
    unquoteWithin quote.char (quote.escaped c ++ rest) =
      (unquoteWithin quote.char rest).map (c :: ·) := by
  rw [escaped]
  split
  · next special =>
    have unescaped : unescape c = c := by
      rcases special with rfl | rfl
      · rfl
      · cases quote <;> rfl
    show unquoteWithin quote.char ('\\' :: c :: rest) = _
    rw [unquoteWithin, unescaped]
  · next plain =>
    obtain ⟨notBackslash, notQuote⟩ := not_or.1 plain
    split
    · next isFeed =>
      subst isFeed
      show unquoteWithin quote.char ('\\' :: 'n' :: rest) = _
      rw [unquoteWithin]
      rfl
    · exact (unquoteWithin_cons notBackslash rest).trans (if_neg notQuote)

/-- A literal in front of others is read as the text that it was made from. -/
theorem unquoteBetween_literal_append (found : Bool) (content rest : List Char) :
    unquoteBetween found (quote.literal content ++ rest) =
      (unquoteBetween true rest).map (content ++ ·) := by
  have within : unquoteWithin quote.char (content.flatMap quote.escaped ++ quote.char :: rest) =
      (unquoteBetween true rest).map (content ++ ·) := by
    induction content with
    | nil =>
      show unquoteWithin quote.char (quote.char :: rest) = _
      rw [unquoteWithin_cons quote.char_ne_backslash, if_pos rfl]
      exact Option.map_id'.symm
    | cons c others inductionHypothesis =>
      rw [List.flatMap_cons, List.append_assoc, unquoteWithin_escaped, inductionHypothesis,
        Option.map_map]
      rfl
  rw [literal, List.cons_append, List.append_assoc, unquoteBetween, isBlank_char, isQuote_char]
  exact within

/-- A literal is read as the text that it was made from. -/
theorem unquote_literal (content : List Char) : unquote (quote.literal content) = some content := by
  have read := unquoteBetween_literal_append quote false content []
  rw [List.append_nil] at read
  rw [unquote, read]
  exact congrArg some (List.append_nil content)

end Quote

end Workflow.Text
