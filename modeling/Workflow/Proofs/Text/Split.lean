/-
This file proves what cutting, trimming and splitting a text yield.

A text is balanced if its literals are closed and its brackets match: scanning it ends
at the depth at which it began and never goes below. A balanced text in which a
separator stands inside brackets or literals only is a single piece, and splitting goes
on behind the separator that follows it. A head with a balanced text in brackets is
taken apart into the two.
-/

import Mathlib.Data.List.Basic
import Workflow.Text.SplitLength

namespace Workflow.Text

/-! ### Cutting -/

theorem mem_of_cut {mark : Char} {text before after : List Char}
    (found : cut mark text = some (before, after)) : mark ∈ text := by
  rw [eq_of_cut found]
  exact List.mem_append_right before List.mem_cons_self

theorem cut_append {mark : Char} {before : List Char} (absent : mark ∉ before)
    (after : List Char) : cut mark (before ++ mark :: after) = some (before, after) := by
  induction before with
  | nil => exact if_pos rfl
  | cons c rest inductionHypothesis =>
    obtain ⟨apart, absent⟩ := not_or.1 fun either => absent (List.mem_cons.2 either)
    rw [List.cons_append, cut, if_neg (Ne.symm apart), inductionHypothesis absent]
    rfl

theorem cut_eq_none {mark : Char} {text : List Char} (absent : mark ∉ text) :
    cut mark text = none := by
  cases found : cut mark text with
  | none => rfl
  | some parts => exact absurd (mem_of_cut found) absent

/-- In front of the first occurrence of a mark there is none. -/
theorem notMem_of_cut {mark : Char} {text before after : List Char}
    (found : cut mark text = some (before, after)) : mark ∉ before := by
  induction text generalizing before with
  | nil => cases found
  | cons c rest inductionHypothesis =>
    rw [cut] at found
    split at found
    · cases found
      exact List.not_mem_nil
    · next apart =>
      obtain ⟨⟨front, back⟩, isCut, same⟩ := Option.map_eq_some_iff.1 found
      cases same
      exact List.not_mem_cons_of_ne_of_not_mem (Ne.symm apart) (inductionHypothesis isCut)

theorem cutLast_append {mark : Char} {after : List Char} (absent : mark ∉ after)
    (before : List Char) : cutLast mark (before ++ mark :: after) = some (before, after) := by
  have reversed : (before ++ mark :: after).reverse = after.reverse ++ mark :: before.reverse := by
    simp
  rw [cutLast, reversed, cut_append fun member => absent (List.mem_reverse.1 member)]
  simp

theorem cutLast_eq_none {mark : Char} {text : List Char} (absent : mark ∉ text) :
    cutLast mark text = none := by
  rw [cutLast, cut_eq_none fun member => absent (List.mem_reverse.1 member)]
  rfl

/-- Every text with a mark has a last one. -/
theorem exists_cutLast {mark : Char} {text : List Char} (member : mark ∈ text) :
    ∃ before after, text = before ++ mark :: after ∧ mark ∉ after := by
  obtain ⟨after, before, reversed, absent⟩ :=
    List.eq_append_cons_of_mem (List.mem_reverse.2 member)
  refine ⟨before.reverse, after.reverse, ?_, fun inAfter => absent (List.mem_reverse.1 inAfter)⟩
  rw [← List.reverse_reverse text, reversed]
  simp

/-- Behind the last occurrence of a mark there is no other one. -/
theorem cutLast_eq_some_iff {mark : Char} {text before after : List Char} :
    cutLast mark text = some (before, after) ↔ text = before ++ mark :: after ∧ mark ∉ after := by
  constructor
  · intro found
    have member : mark ∈ text := by
      by_contra absent
      rw [cutLast_eq_none absent] at found
      cases found
    obtain ⟨front, back, rfl, absent⟩ := exists_cutLast member
    rw [cutLast_append absent] at found
    cases found
    exact ⟨rfl, absent⟩
  · rintro ⟨rfl, absent⟩
    exact cutLast_append absent before

/-! ### Trimming -/

theorem mem_of_mem_trim {c : Char} {text : List Char} (member : c ∈ trim text) : c ∈ text := by
  rw [trim, trimEnd, List.mem_reverse] at member
  exact (List.dropWhile_sublist _).mem
    (List.mem_reverse.1 ((List.dropWhile_sublist _).mem member))

theorem trimEnd_eq_self {text : List Char} (last : ∀ c ∈ text.getLast?, isBlank c = false) :
    trimEnd text = text := by
  have ended : text.reverse.dropWhile isBlank = text.reverse := by
    cases reversed : text.reverse with
    | nil => rfl
    | cons c rest =>
      refine List.dropWhile_cons_of_neg ?_
      rw [last c (by rw [List.getLast?_eq_head?_reverse, reversed]; rfl)]
      exact Bool.false_ne_true
  rw [trimEnd, ended, List.reverse_reverse]

/-- A text without blanks at its ends is left as it is. -/
theorem trim_eq_self {text : List Char} (first : ∀ c ∈ text.head?, isBlank c = false)
    (last : ∀ c ∈ text.getLast?, isBlank c = false) : trim text = text := by
  have start : trimStart text = text := by
    cases text with
    | nil => rfl
    | cons c rest => exact List.dropWhile_cons_of_neg (by simp [first c rfl])
  rw [trim, start, trimEnd_eq_self last]

theorem trim_cons_of_blank {c : Char} (blank : isBlank c = true) (text : List Char) :
    trim (c :: text) = trim text := by
  rw [trim, trim, trimStart, List.dropWhile_cons_of_pos blank]
  rfl

theorem trimEnd_cons {c : Char} (visible : isBlank c = false) (text : List Char) :
    trimEnd (c :: text) = c :: trimEnd text := by
  have stops : [c].dropWhile isBlank = [c] :=
    List.dropWhile_cons_of_neg (by rw [visible]; exact Bool.false_ne_true)
  rw [trimEnd, trimEnd, List.reverse_cons, List.dropWhile_append]
  split
  · next none =>
    rw [stops, List.isEmpty_iff.1 none]
    rfl
  · rw [List.reverse_append]
    rfl

theorem trim_cons {c : Char} (visible : isBlank c = false) (text : List Char) :
    trim (c :: text) = c :: trimEnd text := by
  rw [trim, trimStart, List.dropWhile_cons_of_neg (by rw [visible]; exact Bool.false_ne_true),
    trimEnd_cons visible]

/-- Blanks only are trimmed, and a text does not start with a blank afterwards. -/
theorem exists_trim (text : List Char) : ∃ before after, text = before ++ trim text ++ after ∧
    (∀ c ∈ before, isBlank c = true) ∧ (∀ c ∈ after, isBlank c = true) ∧
      ∀ c ∈ (trim text).head?, isBlank c = false := by
  refine ⟨text.takeWhile isBlank, ((trimStart text).reverse.takeWhile isBlank).reverse, ?_,
    fun c member => List.all_eq_true.1 List.all_takeWhile c member,
    fun c member => List.all_eq_true.1 List.all_takeWhile c (List.mem_reverse.1 member), ?_⟩
  · rw [List.append_assoc, trim, trimEnd, ← List.reverse_append, List.takeWhile_append_dropWhile,
      List.reverse_reverse, trimStart, List.takeWhile_append_dropWhile]
  · intro c isFirst
    cases start : trimStart text with
    | nil =>
      rw [trim, start] at isFirst
      cases isFirst
    | cons first rest =>
      have visible : isBlank first = false := by
        have stops := List.head?_dropWhile_not isBlank text
        rw [← trimStart, start] at stops
        simpa using stops
      rw [trim, start, trimEnd_cons visible] at isFirst
      exact Option.some.inj isFirst ▸ visible

theorem isBlank_getLast?_trimEnd (text : List Char) :
    ∀ c ∈ (trimEnd text).getLast?, isBlank c = false := by
  intro c isLast
  rw [trimEnd, List.getLast?_reverse] at isLast
  have stops := List.head?_dropWhile_not isBlank text.reverse
  rw [isLast] at stops
  simpa using stops

theorem trim_trim (text : List Char) : trim (trim text) = trim text := by
  obtain ⟨_, _, _, _, _, first⟩ := exists_trim text
  exact trim_eq_self first (isBlank_getLast?_trimEnd (trimStart text))

/-! ### Marks -/

theorem marked_append (scan : Scan) (before after : List Char) :
    marked scan (before ++ after) = marked scan before ++ marked (scan.run before) after := by
  induction before generalizing scan with
  | nil => rfl
  | cons c rest inductionHypothesis =>
    exact congrArg ((c, scan.mark c) :: ·) (inductionHypothesis (scan.step c))

theorem run_append (scan : Scan) (before after : List Char) :
    scan.run (before ++ after) = (scan.run before).run after := List.foldl_append

theorem map_fst_marked (scan : Scan) (text : List Char) :
    (marked scan text).map Prod.fst = text := by
  induction text generalizing scan with
  | nil => rfl
  | cons c rest inductionHypothesis => exact congrArg (c :: ·) (inductionHypothesis _)

/-- A character that neither opens a literal nor is a bracket. -/
def isPlain (c : Char) : Bool := !isQuote c && !isOpener c && !isCloser c

theorem isPlain_iff {c : Char} :
    isPlain c = true ↔ isQuote c = false ∧ isOpener c = false ∧ isCloser c = false := by
  simp [isPlain, and_assoc]

section Steps

variable {c : Char} (depth : Int)

theorem step_of_isPlain (plain : isPlain c = true) :
    (Scan.outside depth).step c = .outside depth := by
  obtain ⟨notQuote, notOpener, notCloser⟩ := isPlain_iff.1 plain
  simp [Scan.step, notQuote, notOpener, notCloser]

theorem mark_of_isPlain (plain : isPlain c = true) :
    (Scan.outside depth).mark c = some depth := by
  obtain ⟨notQuote, notOpener, notCloser⟩ := isPlain_iff.1 plain
  simp [Scan.mark, notQuote, notCloser]

theorem step_of_isOpener (opens : isOpener c = true) :
    (Scan.outside depth).step c = .outside (depth + 1) := by
  simp only [isOpener, Bool.or_eq_true, beq_iff_eq] at opens
  obtain (rfl | rfl) | rfl := opens <;> rfl

theorem mark_of_isOpener (opens : isOpener c = true) :
    (Scan.outside depth).mark c = some depth := by
  simp only [isOpener, Bool.or_eq_true, beq_iff_eq] at opens
  obtain (rfl | rfl) | rfl := opens <;> rfl

theorem step_of_isCloser (closes : isCloser c = true) :
    (Scan.outside depth).step c = .outside (depth - 1) := by
  simp only [isCloser, Bool.or_eq_true, beq_iff_eq] at closes
  obtain (rfl | rfl) | rfl := closes <;> rfl

theorem mark_of_isCloser (closes : isCloser c = true) :
    (Scan.outside depth).mark c = some (depth - 1) := by
  simp only [isCloser, Bool.or_eq_true, beq_iff_eq] at closes
  obtain (rfl | rfl) | rfl := closes <;> rfl

theorem step_of_isQuote (quotes : isQuote c = true) :
    (Scan.outside depth).step c = .inside c false depth := by
  simp [Scan.step, quotes]

theorem mark_of_isQuote (quotes : isQuote c = true) : (Scan.outside depth).mark c = none := by
  simp [Scan.mark, quotes]

/-- A literal ends at its quote unless a backslash stands in front. -/
theorem step_inside_self (notBackslash : c ≠ '\\') :
    (Scan.inside c false depth).step c = .outside depth := by
  simp [Scan.step, notBackslash]

theorem step_inside_of_ne {quote : Char} (notBackslash : c ≠ '\\') (notQuote : c ≠ quote) :
    (Scan.inside quote false depth).step c = .inside quote false depth := by
  simp [Scan.step, notBackslash, notQuote]

end Steps

theorem ne_backslash_of_isQuote {c : Char} (quotes : isQuote c = true) : c ≠ '\\' := by
  rintro rfl
  cases quotes

/-- Literals are closed and brackets match. -/
structure Balanced (text : List Char) : Prop where
  ends : ∀ depth, (Scan.outside depth).run text = .outside depth
  above : ∀ depth, ∀ entry ∈ marked (.outside depth) text, ∀ mark ∈ entry.2, depth ≤ mark

/-- A separator stands in literals and brackets only. -/
def Undivided (separator : Char) (text : List Char) : Prop :=
  ∀ depth, (separator, some depth) ∉ marked (.outside depth) text

theorem balanced_nil : Balanced [] :=
  ⟨fun _ => rfl, fun _ _ member => absurd member List.not_mem_nil⟩

theorem Balanced.append {before after : List Char} (first : Balanced before)
    (second : Balanced after) : Balanced (before ++ after) where
  ends depth := by rw [run_append, first.ends, second.ends]
  above depth entry member := by
    rw [marked_append, first.ends] at member
    rcases List.mem_append.1 member with inFirst | inSecond
    · exact first.above depth entry inFirst
    · exact second.above depth entry inSecond

theorem balanced_of_plain {text : List Char} (plain : ∀ c ∈ text, isPlain c = true) :
    Balanced text := by
  induction text with
  | nil => exact balanced_nil
  | cons c rest inductionHypothesis =>
    have isPlain := plain c List.mem_cons_self
    have single : Balanced [c] := by
      refine ⟨fun depth => step_of_isPlain depth isPlain, fun depth entry member mark isMark => ?_⟩
      rw [List.mem_singleton.1 member, mark_of_isPlain depth isPlain] at isMark
      exact Int.le_of_eq (Option.some.inj isMark)
    exact single.append (inductionHypothesis fun other member =>
      plain other (List.mem_cons_of_mem c member))

theorem undivided_of_notMem {separator : Char} {text : List Char} (absent : separator ∉ text) :
    Undivided separator text := by
  intro depth member
  refine absent ?_
  rw [← map_fst_marked (.outside depth) text]
  exact List.mem_map_of_mem member

theorem Undivided.append {separator : Char} {before after : List Char} (balanced : Balanced before)
    (first : Undivided separator before) (second : Undivided separator after) :
    Undivided separator (before ++ after) := by
  intro depth member
  rw [marked_append, balanced.ends] at member
  rcases List.mem_append.1 member with inFirst | inSecond
  · exact first depth inFirst
  · exact second depth inSecond

/-! ### Texts in brackets -/

section Enclosed

variable {opening closing : Char} {inner : List Char}

theorem marked_enclosed (opens : isOpener opening = true) (closes : isCloser closing = true)
    (balanced : Balanced inner) (depth : Int) :
    marked (.outside depth) (opening :: (inner ++ [closing])) =
      (opening, some depth) ::
        (marked (.outside (depth + 1)) inner ++ [(closing, some depth)]) := by
  have opened : (Scan.outside depth).step opening = .outside (depth + 1) := step_of_isOpener _ opens
  have first : (Scan.outside depth).mark opening = some depth := mark_of_isOpener _ opens
  have last : (Scan.outside (depth + 1)).mark closing = some depth := by
    rw [mark_of_isCloser _ closes, Int.add_sub_cancel]
  rw [marked, opened, first, marked_append, balanced.ends, marked, marked, last]

/-- A balanced text stays balanced when a bracket of any kind encloses it. -/
theorem Balanced.enclosed (opens : isOpener opening = true) (closes : isCloser closing = true)
    (balanced : Balanced inner) : Balanced (opening :: (inner ++ [closing])) where
  ends depth := by
    show ((Scan.outside depth).step opening).run (inner ++ [closing]) = _
    rw [step_of_isOpener _ opens, run_append, balanced.ends]
    show (Scan.outside (depth + 1)).step closing = _
    rw [step_of_isCloser _ closes, Int.add_sub_cancel]
  above depth entry member mark isMark := by
    rw [marked_enclosed opens closes balanced] at member
    simp only [List.mem_cons, List.mem_append, List.not_mem_nil, or_false] at member
    obtain rfl | inside | rfl := member
    · exact Int.le_of_eq (Option.some.inj isMark)
    · exact Int.le_trans (Int.le_add_one (Int.le_refl depth))
        (balanced.above (depth + 1) entry inside mark isMark)
    · exact Int.le_of_eq (Option.some.inj isMark)

end Enclosed

/-- A text in square brackets. -/
def bracketed (inner : List Char) : List Char := '[' :: (inner ++ [']'])

section Bracketed

variable {inner : List Char}

theorem marked_bracketed (balanced : Balanced inner) (depth : Int) :
    marked (.outside depth) (bracketed inner) =
      ('[', some depth) :: (marked (.outside (depth + 1)) inner ++ [(']', some depth)]) :=
  marked_enclosed rfl rfl balanced depth

theorem Balanced.bracketed (balanced : Balanced inner) : Balanced (bracketed inner) :=
  balanced.enclosed rfl rfl

/-- Separators in brackets do not divide a text. -/
theorem undivided_bracketed (balanced : Balanced inner) {separator : Char}
    (plain : isPlain separator = true) : Undivided separator (bracketed inner) := by
  intro depth member
  rw [marked_bracketed balanced] at member
  simp only [List.mem_cons, List.mem_append, List.not_mem_nil, or_false] at member
  obtain same | inside | same := member
  · obtain rfl := congrArg Prod.fst same
    cases plain
  · have deeper := balanced.above (depth + 1) _ inside depth rfl
    omega
  · obtain rfl := congrArg Prod.fst same
    cases plain

end Bracketed

/-! ### Splitting -/

theorem piecesBetween_ne_nil (separator : Char) (text : List Marked) :
    piecesBetween separator text ≠ [] := by
  intro none
  have total := length_flatten_piecesBetween separator text
  rw [none] at total
  cases total

theorem piecesBetween_cons_self (separator : Char) (rest : List Marked) :
    piecesBetween separator ((separator, some 0) :: rest) =
      [] :: piecesBetween separator rest := by
  rw [piecesBetween]
  cases pieces : piecesBetween separator rest with
  | nil => exact absurd pieces (piecesBetween_ne_nil separator rest)
  | cons piece others => exact if_pos ⟨rfl, rfl⟩

/-- What does not divide a text belongs to its first piece. -/
theorem exists_piecesBetween_cons {separator : Char} {entry : Marked}
    (stays : entry ≠ (separator, some 0)) (rest : List Marked) :
    ∃ piece others, piecesBetween separator rest = piece :: others ∧
      piecesBetween separator (entry :: rest) = (entry.1 :: piece) :: others := by
  obtain ⟨piece, others, split⟩ :=
    List.exists_cons_of_ne_nil (piecesBetween_ne_nil separator rest)
  refine ⟨piece, others, split, ?_⟩
  obtain ⟨c, mark⟩ := entry
  rw [piecesBetween, split]
  exact if_neg fun divides => stays (Prod.ext divides.1 divides.2)

theorem cutAssignMarked_eq_none {text : List Marked} (absent : ('=', some 0) ∉ text)
    (previous : Char) : cutAssignMarked previous text = none := by
  induction text generalizing previous with
  | nil => rfl
  | cons entry rest inductionHypothesis =>
    obtain ⟨c, mark⟩ := entry
    obtain ⟨apart, absent⟩ := not_or.1 fun either => absent (List.mem_cons.2 either)
    rw [cutAssignMarked, if_neg, inductionHypothesis absent]
    · rfl
    · rintro ⟨rfl, rfl, -⟩
      exact apart rfl

theorem piecesBetween_of_notMem {separator : Char} {text : List Marked}
    (absent : (separator, some 0) ∉ text) :
    piecesBetween separator text = [text.map Prod.fst] := by
  induction text with
  | nil => rfl
  | cons entry rest inductionHypothesis =>
    obtain ⟨apart, absent⟩ := not_or.1 fun either => absent (List.mem_cons.2 either)
    obtain ⟨piece, others, split, joined⟩ := exists_piecesBetween_cons (Ne.symm apart) rest
    rw [inductionHypothesis absent] at split
    cases split
    exact joined

theorem piecesBetween_append {separator : Char} {before : List Marked}
    (absent : (separator, some 0) ∉ before) (after : List Marked) :
    piecesBetween separator (before ++ (separator, some 0) :: after) =
      before.map Prod.fst :: piecesBetween separator after := by
  induction before with
  | nil => exact piecesBetween_cons_self separator after
  | cons entry rest inductionHypothesis =>
    obtain ⟨apart, absent⟩ := not_or.1 fun either => absent (List.mem_cons.2 either)
    obtain ⟨piece, others, split, joined⟩ := exists_piecesBetween_cons (Ne.symm apart)
      (rest ++ (separator, some 0) :: after)
    rw [inductionHypothesis absent] at split
    cases split
    exact joined

/-- A text that the separator does not divide is a single piece. -/
theorem splitTopLevel_of_undivided {separator : Char} {text : List Char}
    (undivided : Undivided separator text) : splitTopLevel separator text = [trim text] := by
  rw [splitTopLevel, Scan.start, piecesBetween_of_notMem (undivided 0), map_fst_marked]
  rfl

/-- The first piece ends at the first separator outside literals and brackets. -/
theorem splitTopLevel_append {separator : Char} {before : List Char} (balanced : Balanced before)
    (undivided : Undivided separator before) (plain : isPlain separator = true)
    (after : List Char) :
    splitTopLevel separator (before ++ separator :: after) =
      trim before :: splitTopLevel separator after := by
  rw [splitTopLevel, Scan.start, marked_append, balanced.ends, marked,
    step_of_isPlain 0 plain, mark_of_isPlain 0 plain, piecesBetween_append (undivided 0),
    map_fst_marked]
  rfl

/-- Blanks at the front make no difference. -/
theorem splitTopLevel_cons_of_blank {separator c : Char} (blank : isBlank c = true)
    (plain : isPlain c = true) (apart : c ≠ separator) (text : List Char) :
    splitTopLevel separator (c :: text) = splitTopLevel separator text := by
  have stays : (c, Scan.start.mark c) ≠ (separator, some 0) := fun same =>
    apart (congrArg Prod.fst same)
  obtain ⟨piece, others, split, joined⟩ :=
    exists_piecesBetween_cons stays (marked (.outside 0) text)
  rw [splitTopLevel, splitTopLevel, marked, Scan.start, step_of_isPlain 0 plain, split]
  rw [Scan.start] at joined
  rw [joined, List.map_cons, List.map_cons, trim_cons_of_blank blank]

/-- Head and arguments are told apart by the first bracket, which the last character closes. -/
theorem splitSubscript_append {head inner : List Char} (absent : '[' ∉ head)
    (balanced : Balanced inner)
    (trimmed : trim (head ++ bracketed inner) = head ++ bracketed inner) :
    splitSubscript (head ++ bracketed inner) = some (trim head, inner) := by
  have body : (marked .start (bracketed inner)).dropLast =
      ('[', some 0) :: marked (.outside 1) inner := by
    rw [Scan.start, marked_bracketed balanced, ← List.cons_append, List.dropLast_concat]
    rfl
  have stays : (marked .start (bracketed inner)).dropLast.any
      (fun entry => isCloser entry.1 && entry.2 == some 0) = false := by
    rw [body, List.any_cons, List.any_eq_false.2]
    · rfl
    · intro entry inside closes
      rw [Bool.and_eq_true, beq_iff_eq] at closes
      have deeper := balanced.above 1 entry inside 0 closes.2
      omega
  rw [splitSubscript, splitCall, trimmed, bracketed, cut_append absent]
  dsimp only
  rw [if_pos]
  · rw [List.dropLast_concat]
  · refine ⟨List.getLast?_concat, ?_⟩
    exact congrArg (!·) stays

theorem splitCall_eq_none {opening : Char} {text : List Char} (absent : opening ∉ text)
    (closing : Char) : splitCall opening closing text = none := by
  rw [splitCall, cut_eq_none fun member => absent (mem_of_mem_trim member)]

theorem splitSubscript_eq_none {text : List Char} (absent : '[' ∉ text) :
    splitSubscript text = none := splitCall_eq_none absent ']'

end Workflow.Text
