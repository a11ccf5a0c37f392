/-
This file proves that splitting a text at a separator loses nothing.

What a literal is, and how many brackets a text leaves open, is told by rules on texts
alone, and the scan is proved to follow them. A separator divides a text where what stands
in front of it leaves neither a literal nor a bracket open. As the separator itself is
neither a quote nor a bracket, the scan behind it is one that has read nothing. Hence a
piece is marked in the text as it is marked alone, however its quotes and brackets match,
and a second splitting finds nothing more to divide. The pieces are determined by the text
that they make up and by the places where they meet.
-/

import Workflow.Proofs.Text.Word

namespace Workflow.Text

/-! ### What a text leaves open -/

/-- A text that may stand between two such quotes: the quote occurs behind a backslash only, and
no backslash at the end takes the closing quote along. -/
inductive LiteralBody (quote : Char) : List Char → Prop
  | nil : LiteralBody quote []
  | plain {c : Char} {rest : List Char} (notBackslash : c ≠ '\\') (notQuote : c ≠ quote)
      (isBody : LiteralBody quote rest) : LiteralBody quote (c :: rest)
  | escape {c : Char} {rest : List Char} (isBody : LiteralBody quote rest) :
      LiteralBody quote ('\\' :: c :: rest)

/-- The literals of a text are closed, and outside them so many more brackets open than close. -/
inductive LeavesOpen : Int → List Char → Prop
  | nil : LeavesOpen 0 []
  | plain {levels : Int} {c : Char} {rest : List Char} (plain : isPlain c = true)
      (further : LeavesOpen levels rest) : LeavesOpen levels (c :: rest)
  | opener {levels : Int} {c : Char} {rest : List Char} (opens : isOpener c = true)
      (further : LeavesOpen levels rest) : LeavesOpen (levels + 1) (c :: rest)
  | closer {levels : Int} {c : Char} {rest : List Char} (closes : isCloser c = true)
      (further : LeavesOpen levels rest) : LeavesOpen (levels - 1) (c :: rest)
  | literal {levels : Int} {quote : Char} {body rest : List Char} (quotes : isQuote quote = true)
      (isBody : LiteralBody quote body) (further : LeavesOpen levels rest) :
      LeavesOpen levels (quote :: (body ++ quote :: rest))

/-- A scan stays inside a literal up to the closing quote. -/
theorem LiteralBody.run {quote : Char} {body : List Char} (isBody : LiteralBody quote body)
    (depth : Int) : (Scan.inside quote false depth).run body = .inside quote false depth := by
  induction isBody with
  | nil => rfl
  | @plain c rest notBackslash notQuote _ inductionHypothesis =>
    show ((Scan.inside quote false depth).step c).run rest = _
    rw [step_inside_of_ne depth notBackslash notQuote, inductionHypothesis]
  | escape _ inductionHypothesis => exact inductionHypothesis

theorem LeavesOpen.run {levels : Int} {text : List Char} (opened : LeavesOpen levels text)
    (depth : Int) : (Scan.outside depth).run text = .outside (depth + levels) := by
  induction opened generalizing depth with
  | nil => exact congrArg Scan.outside (Int.add_zero depth).symm
  | @plain levels c rest plain _ inductionHypothesis =>
    show ((Scan.outside depth).step c).run rest = _
    rw [step_of_isPlain depth plain, inductionHypothesis]
  | @opener levels c rest opens _ inductionHypothesis =>
    show ((Scan.outside depth).step c).run rest = _
    rw [step_of_isOpener depth opens, inductionHypothesis]
    exact congrArg Scan.outside (by omega)
  | @closer levels c rest closes _ inductionHypothesis =>
    show ((Scan.outside depth).step c).run rest = _
    rw [step_of_isCloser depth closes, inductionHypothesis]
    exact congrArg Scan.outside (by omega)
  | @literal levels quote body rest quotes isBody _ inductionHypothesis =>
    show ((Scan.outside depth).step quote).run (body ++ quote :: rest) = _
    rw [step_of_isQuote depth quotes, run_append, isBody.run]
    show ((Scan.inside quote false depth).step quote).run rest = _
    rw [step_inside_self depth (ne_backslash_of_isQuote quotes), inductionHypothesis]

/-- A scan that comes out of a literal has read its closing quote. -/
theorem exists_literalBody_of_run {quote : Char} {depth level : Int} :
    ∀ {text : List Char}, (Scan.inside quote false depth).run text = .outside level →
      ∃ body rest, text = body ++ quote :: rest ∧ LiteralBody quote body ∧
        (Scan.outside depth).run rest = .outside level
  | [], ends => nomatch ends
  | c :: rest, ends => by
    change ((Scan.inside quote false depth).step c).run rest = _ at ends
    by_cases backslash : c = '\\'
    · subst backslash
      match rest, ends with
      | escaped :: rest, ends =>
        obtain ⟨body, after, rfl, isBody, run⟩ := exists_literalBody_of_run ends
        exact ⟨'\\' :: escaped :: body, after, rfl, isBody.escape, run⟩
    · by_cases closes : c = quote
      · subst closes
        rw [step_inside_self depth backslash] at ends
        exact ⟨[], rest, rfl, .nil, ends⟩
      · rw [step_inside_of_ne depth backslash closes] at ends
        obtain ⟨body, after, rfl, isBody, run⟩ := exists_literalBody_of_run ends
        exact ⟨c :: body, after, rfl, isBody.plain backslash closes, run⟩

theorem leavesOpen_of_run {depth level : Int} {text : List Char}
    (ends : (Scan.outside depth).run text = .outside level) :
    LeavesOpen (level - depth) text := by
  match text with
  | [] =>
    obtain rfl : depth = level := Scan.outside.inj ends
    rw [Int.sub_self]
    exact .nil
  | c :: rest =>
    change ((Scan.outside depth).step c).run rest = _ at ends
    cases quotes : isQuote c
    case true =>
      -- A literal is taken as a whole, so the recursion is on shorter texts and not on tails.
      rw [step_of_isQuote depth quotes] at ends
      obtain ⟨body, after, rfl, isBody, run⟩ := exists_literalBody_of_run ends
      exact .literal quotes isBody (leavesOpen_of_run run)
    case false =>
      cases opens : isOpener c
      case true =>
        rw [step_of_isOpener depth opens] at ends
        have further := (leavesOpen_of_run ends).opener opens
        rwa [show level - (depth + 1) + 1 = level - depth by omega] at further
      case false =>
        cases closes : isCloser c
        case true =>
          rw [step_of_isCloser depth closes] at ends
          have further := (leavesOpen_of_run ends).closer closes
          rwa [show level - (depth - 1) - 1 = level - depth by omega] at further
        case false =>
          have plain := isPlain_iff.2 ⟨quotes, opens, closes⟩
          rw [step_of_isPlain depth plain] at ends
          exact .plain plain (leavesOpen_of_run ends)
termination_by text.length

/-- The scan counts what a text leaves open. -/
theorem leavesOpen_iff {levels : Int} {text : List Char} :
    LeavesOpen levels text ↔ Scan.start.run text = .outside levels := by
  constructor
  · intro opened
    rw [Scan.start, opened.run, Int.zero_add]
  · intro ends
    have opened := leavesOpen_of_run ends
    rwa [Int.sub_zero] at opened

instance (levels : Int) (text : List Char) : Decidable (LeavesOpen levels text) :=
  decidable_of_iff _ leavesOpen_iff.symm

/-! ### Where a text is divided -/

/-- The places of a text at which a separator stands with nothing open in front of it. -/
def dividers (separator : Char) (text : List Char) : List Nat :=
  (List.range text.length).filter fun place =>
    text[place]? = some separator ∧ LeavesOpen 0 (text.take place)

/-- The places at which pieces meet when one character is put between any two of them. -/
def joints : List (List Char) → List Nat
  | [] => []
  | [_] => []
  | piece :: next :: rest =>
    piece.length :: (joints (next :: rest)).map (· + (piece.length + 1))

/-- A decomposition of a text: with the separator between them the pieces are the text again, and
they meet at its dividers. -/
structure Decomposes (separator : Char) (text : List Char) (pieces : List (List Char)) :
    Prop where
  nonempty : pieces ≠ []
  joined : [separator].intercalate pieces = text
  meets : joints pieces = dividers separator text

theorem getElem?_marked (scan : Scan) (text : List Char) (place : Nat) :
    (marked scan text)[place]? =
      text[place]?.map fun c => (c, (scan.run (text.take place)).mark c) := by
  induction text generalizing scan place with
  | nil => rfl
  | cons c rest inductionHypothesis =>
    cases place with
    | zero => rfl
    | succ place => exact inductionHypothesis (scan.step c) place

/-- A plain character stands where the scan is outside. -/
theorem mark_eq_some_iff {c : Char} (plain : isPlain c = true) {scan : Scan} {depth : Int} :
    scan.mark c = some depth ↔ scan = .outside depth := by
  cases scan with
  | outside level => rw [mark_of_isPlain level plain, Option.some.injEq, Scan.outside.injEq]
  | inside quote escaped level => exact ⟨nofun, nofun⟩

/-- The marks tell the dividers. -/
theorem dividers_eq {separator : Char} (plain : isPlain separator = true) (text : List Char) :
    dividers separator text = (List.range text.length).filter fun place =>
      (marked .start text)[place]? = some (separator, some 0) := by
  refine List.filter_congr fun place _ => decide_eq_decide.2 ?_
  rw [getElem?_marked, leavesOpen_iff, ← mark_eq_some_iff plain]
  constructor
  · rintro ⟨isSeparator, outside⟩
    rw [isSeparator, ← outside]
    rfl
  · intro isMarked
    obtain ⟨c, found, same⟩ := Option.map_eq_some_iff.1 isMarked
    obtain ⟨rfl, outside⟩ := Prod.mk.inj same
    exact ⟨found, outside⟩

/-! ### What the pieces are -/

theorem joints_nil_cons {pieces : List (List Char)} (nonempty : pieces ≠ []) :
    joints ([] :: pieces) = 0 :: (joints pieces).map (· + 1) := by
  cases pieces with
  | nil => exact absurd rfl nonempty
  | cons piece rest => rfl

theorem joints_cons_cons (c : Char) (piece : List Char) (pieces : List (List Char)) :
    joints ((c :: piece) :: pieces) = (joints (piece :: pieces)).map (· + 1) := by
  cases pieces with
  | nil => rfl
  | cons next rest =>
    rw [joints, joints, List.map_cons, List.map_map]
    rfl

theorem length_joints {pieces : List (List Char)} (nonempty : pieces ≠ []) :
    pieces.length = (joints pieces).length + 1 := by
  induction pieces with
  | nil => exact absurd rfl nonempty
  | cons piece rest inductionHypothesis =>
    cases rest with
    | nil => rfl
    | cons next others =>
      rw [List.length_cons, inductionHypothesis (List.cons_ne_nil _ _), joints, List.length_cons,
        List.length_map]

/-- Pieces are told by the text that they make up and by where they meet. -/
theorem eq_of_joints_eq {separator : Char} {first second : List (List Char)}
    (firstNonempty : first ≠ []) (secondNonempty : second ≠ [])
    (joined : [separator].intercalate first = [separator].intercalate second)
    (meets : joints first = joints second) : first = second := by
  induction first generalizing second with
  | nil => exact absurd rfl firstNonempty
  | cons piece others inductionHypothesis =>
    match others, second with
    | _, [] => exact absurd rfl secondNonempty
    | [], [_] => simpa using joined
    | [], _ :: _ :: _ => cases meets
    | _ :: _, [_] => cases meets
    | next :: rest, other :: following :: further =>
      obtain ⟨sameLength, later⟩ := List.cons.inj meets
      rw [List.intercalate_cons_cons, List.intercalate_cons_cons, List.append_assoc,
        List.append_assoc] at joined
      obtain ⟨rfl, tails⟩ := List.append_inj joined sameLength
      have same := inductionHypothesis (List.cons_ne_nil _ _) (List.cons_ne_nil _ _)
        (List.append_cancel_left tails)
        (List.map_injective_iff.2 (fun _ _ => Nat.add_right_cancel) later)
      rw [same]

/-- A text has no two decompositions. -/
theorem Decomposes.unique {separator : Char} {text : List Char} {first second : List (List Char)}
    (decomposes : Decomposes separator text first) (also : Decomposes separator text second) :
    first = second :=
  eq_of_joints_eq decomposes.nonempty also.nonempty (decomposes.joined.trans also.joined.symm)
    (decomposes.meets.trans also.meets.symm)

/-- Pieces of a marked text meet where it has a separator at depth zero. -/
theorem joints_piecesBetween (separator : Char) (text : List Marked) :
    joints (piecesBetween separator text) =
      (List.range text.length).filter fun place => text[place]? = some (separator, some 0) := by
  induction text with
  | nil => rfl
  | cons entry rest inductionHypothesis =>
    have further : ((List.range rest.length).map Nat.succ).filter
          (fun place => (entry :: rest)[place]? = some (separator, some 0)) =
        (joints (piecesBetween separator rest)).map (· + 1) := by
      rw [inductionHypothesis, List.filter_map]
      rfl
    rw [List.length_cons, List.range_succ_eq_map, List.filter_cons, further]
    by_cases divides : entry = (separator, some 0)
    · rw [if_pos (by simp [divides]), divides, piecesBetween_cons_self,
        joints_nil_cons (piecesBetween_ne_nil separator rest)]
    · obtain ⟨piece, others, split, joined⟩ := exists_piecesBetween_cons divides rest
      rw [if_neg (by simp [divides]), joined, joints_cons_cons, split]

/-- With the separator between them the pieces are the text. -/
theorem intercalate_piecesBetween (separator : Char) (text : List Marked) :
    [separator].intercalate (piecesBetween separator text) = text.map Prod.fst := by
  induction text with
  | nil => rfl
  | cons entry rest inductionHypothesis =>
    rw [List.map_cons, ← inductionHypothesis]
    by_cases divides : entry = (separator, some 0)
    · obtain ⟨piece, others, split⟩ :=
        List.exists_cons_of_ne_nil (piecesBetween_ne_nil separator rest)
      rw [divides, piecesBetween_cons_self, split]
      rfl
    · obtain ⟨piece, others, split, joined⟩ := exists_piecesBetween_cons divides rest
      rw [joined, split]
      cases others <;> rfl

/-- No piece has a separator at depth zero: the first is marked from where the text starts, and
the others from the start, where the scan stands behind a separator. -/
theorem undivided_piecesBetween {separator : Char} (plain : isPlain separator = true)
    {scan : Scan} {text first : List Char} {others : List (List Char)}
    (pieces : piecesBetween separator (marked scan text) = first :: others) :
    (separator, some 0) ∉ marked scan first ∧
      ∀ piece ∈ others, (separator, some 0) ∉ marked .start piece := by
  induction text generalizing scan first others with
  | nil =>
    cases pieces
    exact ⟨List.not_mem_nil, List.forall_mem_nil _⟩
  | cons c rest inductionHypothesis =>
    rw [marked] at pieces
    by_cases divides : (c, scan.mark c) = (separator, some 0)
    · -- The scan stands at the start again, so the next piece is one that follows a separator.
      obtain ⟨rfl, isMark⟩ := Prod.mk.inj divides
      obtain rfl := (mark_eq_some_iff plain).1 isMark
      rw [isMark, piecesBetween_cons_self, step_of_isPlain 0 plain] at pieces
      cases split : piecesBetween c (marked (.outside 0) rest) with
      | nil => exact absurd split (piecesBetween_ne_nil c _)
      | cons next further =>
        obtain ⟨inNext, inFurther⟩ := inductionHypothesis split
        cases pieces
        rw [split]
        exact ⟨List.not_mem_nil, List.forall_mem_cons.2 ⟨inNext, inFurther⟩⟩
    · obtain ⟨next, further, split, joined⟩ :=
        exists_piecesBetween_cons divides (marked (scan.step c) rest)
      obtain ⟨inNext, inFurther⟩ := inductionHypothesis split
      rw [joined] at pieces
      cases pieces
      refine ⟨fun member => ?_, inFurther⟩
      rcases List.mem_cons.1 member with same | inRest
      · exact divides same.symm
      · exact inNext inRest

/-- A text stays undivided when it is trimmed. -/
theorem Undivided.trim {separator : Char} {text : List Char}
    (undivided : Undivided separator text) : Undivided separator (trim text) := by
  obtain ⟨before, after, whole, blank, _⟩ := exists_trim text
  have passed (depth : Int) : (Scan.outside depth).run before = .outside depth :=
    (balanced_of_plain fun c member => isPlain_of_isBlank (blank c member)).ends depth
  intro depth member
  refine undivided depth ?_
  rw [whole, marked_append, marked_append, passed]
  exact List.mem_append_left _ (List.mem_append_right _ member)

/-- The pieces of a text before they are trimmed. -/
def untrimmedPieces (separator : Char) (text : List Char) : List (List Char) :=
  piecesBetween separator (marked .start text)

section Separator

variable {separator : Char} (plain : isPlain separator = true) (text : List Char)
include plain

theorem decomposes_untrimmedPieces :
    Decomposes separator text (untrimmedPieces separator text) where
  nonempty := piecesBetween_ne_nil separator _
  joined := by rw [untrimmedPieces, intercalate_piecesBetween, map_fst_marked]
  meets := by rw [untrimmedPieces, joints_piecesBetween, length_marked, dividers_eq plain]

theorem undivided_of_mem_untrimmedPieces {piece : List Char}
    (member : piece ∈ untrimmedPieces separator text) : Undivided separator piece := by
  cases pieces : untrimmedPieces separator text with
  | nil => exact absurd pieces (piecesBetween_ne_nil separator _)
  | cons first others =>
    obtain ⟨inFirst, inOthers⟩ := undivided_piecesBetween plain pieces
    rw [pieces] at member
    rcases List.mem_cons.1 member with rfl | isOther
    · exact undivided_of_start inFirst
    · exact undivided_of_start (inOthers piece isOther)

/-- Splitting trims the pieces of the one decomposition, and no piece can be split further. -/
theorem splitTopLevel_decomposes :
    ∃ pieces, Decomposes separator text pieces ∧
      (∀ others, Decomposes separator text others → others = pieces) ∧
      splitTopLevel separator text = pieces.map trim ∧
      pieces.length = (dividers separator text).length + 1 ∧
      (∀ piece ∈ pieces, splitTopLevel separator piece = [trim piece]) ∧
      ∀ piece ∈ splitTopLevel separator text, splitTopLevel separator piece = [piece] := by
  have decomposes := decomposes_untrimmedPieces plain text
  refine ⟨_, decomposes, fun others also => also.unique decomposes, rfl, ?_,
    fun piece member => ?_, fun trimmed member => ?_⟩
  · rw [← decomposes.meets]
    exact length_joints decomposes.nonempty
  · exact splitTopLevel_of_undivided (undivided_of_mem_untrimmedPieces plain text member)
  · obtain ⟨piece, isPiece, rfl⟩ := List.mem_map.1 member
    have undivided := undivided_of_mem_untrimmedPieces plain text isPiece
    rw [splitTopLevel_of_undivided undivided.trim, trim_trim]

end Separator

/-- A closing bracket that nothing opened, a comma in a literal behind an escaped quote, and a
literal that is never closed. -/
theorem splitTopLevel_decomposes_unclosed :
    let text := "a), (b, 'c\\', ' \"d, ".toList
    isPlain ',' = true ∧ dividers ',' text = [6] ∧
      ∃ pieces, Decomposes ',' text pieces ∧
        (∀ others, Decomposes ',' text others → others = pieces) ∧
        splitTopLevel ',' text = pieces.map trim ∧
        pieces.length = (dividers ',' text).length + 1 ∧
        (∀ piece ∈ pieces, splitTopLevel ',' piece = [trim piece]) ∧
        ∀ piece ∈ splitTopLevel ',' text, splitTopLevel ',' piece = [piece] := by
  intro text
  exact ⟨rfl, by decide, splitTopLevel_decomposes rfl text⟩

end Workflow.Text
