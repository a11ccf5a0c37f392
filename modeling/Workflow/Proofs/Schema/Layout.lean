/-
This file proves that the layout of a source makes no difference to what it declares.

Three things may be changed: lines without code may be added between declarations,
comments may be added to lines of code, and a declaration may go on in a new line at a
space between its brackets. Comments and trailing blanks are dropped before lines are
joined, and where a bracket is open the parts of a declaration are joined by one space.
So the declarations come out as they did, but for empty ones, and readers skip these.
-/

import Mathlib.Data.List.Induction
import Mathlib.Logic.Relation
import Workflow.Proofs.Schema.Lines
import Workflow.Schema.Reader

namespace Workflow

open Text

namespace Text

/-! ### Trimming and comments of joined texts -/

theorem trimEnd_append_blanks (text : List Char) {blanks : List Char}
    (blank : ∀ c ∈ blanks, isBlank c = true) : trimEnd (text ++ blanks) = trimEnd text := by
  rw [trimEnd, List.reverse_append,
    List.dropWhile_append_of_pos fun c member => blank c (List.mem_reverse.1 member)]
  rfl

theorem trimEnd_append (before : List Char) {after : List Char} (visible : trimEnd after ≠ []) :
    trimEnd (before ++ after) = before ++ trimEnd after := by
  have some : ¬(after.reverse.dropWhile isBlank).isEmpty = true := fun none =>
    visible (List.reverse_eq_nil_iff.2 (List.isEmpty_iff.1 none))
  rw [trimEnd, List.reverse_append, List.dropWhile_append, if_neg some, List.reverse_append,
    List.reverse_reverse]
  rfl

theorem trimStart_append {before : List Char} (visible : trimStart before ≠ [])
    (after : List Char) : trimStart (before ++ after) = trimStart before ++ after := by
  have some : ¬(before.dropWhile isBlank).isEmpty = true := fun none =>
    visible (List.isEmpty_iff.1 none)
  rw [trimStart, List.dropWhile_append, if_neg some]
  rfl

theorem trim_eq_trimStart {text : List Char} (last : ∀ c ∈ text.getLast?, isBlank c = false) :
    trim text = trimStart text := by
  refine trimEnd_eq_self fun c isLast => last c ?_
  obtain ⟨blanks, parts⟩ : trimStart text <:+ text := List.dropWhile_suffix isBlank
  rw [← parts, List.getLast?_append, isLast]
  rfl

theorem trimStart_blanks_append {blanks : List Char} (blank : ∀ c ∈ blanks, isBlank c = true)
    (text : List Char) : trimStart (blanks ++ text) = trimStart text :=
  List.dropWhile_append_of_pos blank

/-- A text in front of its comment is scanned whole. -/
theorem takeWhile_marked_of_uncommented {text : List Char}
    (uncommented : stripComment text = text) :
    (marked .start text).takeWhile (fun (c, mark) => !(c == '#' && mark.isSome)) =
      marked .start text := by
  refine (List.takeWhile_prefix _).eq_of_length ?_
  rw [length_marked, ← congrArg List.length uncommented, stripComment, List.length_map]

/-- Behind a text without comments and open literals the comment is looked for anew. -/
theorem stripComment_append {before : List Char} {depth : Int}
    (uncommented : stripComment before = before) (outside : Scan.start.run before = .outside depth)
    (after : List Char) : stripComment (before ++ after) = before ++ stripComment after := by
  have deeper : (marked (.outside depth) after).takeWhile
        (fun (c, mark) => !(c == '#' && mark.isSome)) =
      ((marked .start after).takeWhile fun (c, mark) => !(c == '#' && mark.isSome)).map
        fun entry => (entry.1, entry.2.map (· + depth)) := by
    rw [outside_eq_deeper, marked_deeper, List.takeWhile_map]
    congr 1
    congr 1
    funext entry
    simp
  have whole := takeWhile_marked_of_uncommented uncommented
  rw [stripComment, marked_append, outside, List.takeWhile_append, whole, if_pos rfl, deeper,
    List.map_append, map_fst_marked, List.map_map]
  rfl

/-- What stands behind a comment is dropped with it. -/
theorem stripComment_append_of_commented {before : List Char}
    (commented : stripComment before ≠ before) (after : List Char) :
    stripComment (before ++ after) = stripComment before := by
  have stops : ¬((marked .start before).takeWhile fun (c, mark) =>
      !(c == '#' && mark.isSome)).length = (marked .start before).length := by
    intro same
    refine commented ?_
    rw [stripComment, (List.takeWhile_prefix _).eq_of_length same, map_fst_marked]
  rw [stripComment, marked_append, List.takeWhile_append, if_neg stops]
  rfl

theorem stripComment_cons_of_plain {c : Char} (plain : isPlain c = true) (apart : c ≠ '#')
    (text : List Char) : stripComment (c :: text) = c :: stripComment text := by
  have single : stripComment [c] = [c] :=
    stripComment_eq_self (uncommented_of_notMem fun member =>
      apart (List.mem_singleton.1 member).symm)
  exact stripComment_append single (step_of_isPlain 0 plain) text

theorem stripComment_blanks_append {blanks : List Char} (blank : ∀ c ∈ blanks, isBlank c = true)
    (text : List Char) : stripComment (blanks ++ text) = blanks ++ stripComment text := by
  have plain : Balanced blanks :=
    balanced_of_plain fun c member => isPlain_of_isBlank (blank c member)
  refine stripComment_append (stripComment_eq_self (uncommented_of_notMem fun member => ?_))
    (plain.ends 0) text
  exact absurd (blank _ member) (by decide)

theorem exists_stripComment_cons {c : Char} (apart : c ≠ '#') (text : List Char) :
    ∃ kept, stripComment (c :: text) = c :: kept := by
  simp [stripComment, marked, apart]

theorem bracketDelta_append {before : List Char} {depth : Int}
    (outside : Scan.start.run before = .outside depth) (after : List Char) :
    bracketDelta (before ++ after) = depth + bracketDelta after := by
  rw [bracketDelta, run_append, outside, outside_eq_deeper, run_deeper, bracketDelta]
  cases Scan.start.run after <;> exact Int.add_comm ..

end Text

namespace Declaration

/-! ### Docstrings -/

theorem take_three_trimEnd {mark : Char} (visible : isBlank mark = false) (text : List Char) :
    (trimEnd text).take 3 = [mark, mark, mark] ↔ text.take 3 = [mark, mark, mark] := by
  constructor
  · intro fence
    obtain ⟨blanks, parts⟩ : trimEnd text <+: text := by
      rw [trimEnd, ← List.reverse_suffix, List.reverse_reverse]
      exact List.dropWhile_suffix isBlank
    have long : 3 ≤ (trimEnd text).length := by
      have taken := congrArg List.length fence
      rw [List.length_take] at taken
      simp only [List.length_cons, List.length_nil] at taken
      omega
    rw [← parts, List.take_append_of_le_length long, fence]
  · intro fence
    have parts : text = mark :: mark :: mark :: text.drop 3 := by
      conv_lhs => rw [← List.take_append_drop 3 text, fence]
      rfl
    rw [parts, trimEnd_cons visible, trimEnd_cons visible, trimEnd_cons visible]
    rfl

theorem take_three_append {mark : Char} (apart : mark ≠ ' ') (text rest : List Char) :
    (text ++ ' ' :: rest).take 3 = [mark, mark, mark] ↔ text.take 3 = [mark, mark, mark] := by
  match text with
  | [] | [_] | [_, _] => simp [Ne.symm apart]
  | a :: b :: c :: others => exact Iff.rfl

/-- What stands behind a space does not make a line start with a fence. -/
theorem opensDocstring_append {line : List Char} (visible : trimStart line ≠ [])
    (rest : List Char) :
    opensDocstring (trim (line ++ ' ' :: rest)) = opensDocstring (trim line) := by
  have same {mark : Char} (shown : isBlank mark = false) (apart : mark ≠ ' ') :
      (trim (line ++ ' ' :: rest)).take 3 = [mark, mark, mark] ↔
        (trim line).take 3 = [mark, mark, mark] := by
    rw [trim, trim, trimStart_append visible, take_three_trimEnd shown, take_three_trimEnd shown,
      take_three_append apart]
  rw [Bool.eq_iff_iff]
  simp only [opensDocstring, Bool.or_eq_true, beq_iff_eq, same (rfl : isBlank '"' = false)
    (by decide), same (rfl : isBlank '\'' = false) (by decide)]

/-! ### Joining line by line -/

/-- Where the joining of lines stands between two of them: how many brackets of the declaration
are open, and whether a docstring is. -/
structure Standing where
  depth : Int := 0
  inDocstring : Bool := false

/-- The standing after one more line. -/
def Standing.next (standing : Standing) (raw : List Char) : Standing :=
  let odd := fenceCount (trim raw) % 2 == 1
  if standing.inDocstring then { standing with inDocstring := !odd }
  else if standing.depth = 0 ∧ opensDocstring (trim raw) then { standing with inDocstring := odd }
  else { standing with depth := max 0 (standing.depth + bracketDelta (trimEnd (stripComment raw))) }

/-- The standing after the lines at the start of a source. -/
def Standing.after (lines : List (List Char)) : Standing := lines.foldl Standing.next {}

/-- The declarations of lines, given what the first of them adds to the declaration begun. -/
def joinCode (pending : List Char) (depth : Int) (line : List Char) (rest : List (List Char)) :
    List (List Char) :=
  let joined := pending ++ if depth = 0 then line else ' ' :: trim line
  let total := depth + bracketDelta line
  if total ≤ 0 then joined :: joinLines [] 0 false rest else joinLines joined total false rest

/-- A line of code counts without its comment and the blanks in front of it. -/
theorem joinLines_of_code {depth : Int} {raw : List Char}
    (undocumented : ¬(depth = 0 ∧ opensDocstring (trim raw) = true)) (pending : List Char)
    (rest : List (List Char)) :
    joinLines pending depth false (raw :: rest) =
      joinCode pending depth (trimEnd (stripComment raw)) rest := by
  rw [joinLines, if_neg Bool.false_ne_true, if_neg undocumented]
  rfl

/-- One line leaves declarations, a part of one more, and the standing from which the other lines
are joined. Nothing is left of a declaration when no bracket is open. -/
theorem Standing.exists_joinLines_cons (standing : Standing) (raw : List Char)
    {pending : List Char} (idle : standing.depth = 0 → pending = []) :
    ∃ declared left, ((standing.next raw).depth = 0 → left = []) ∧
      ∀ rest, joinLines pending standing.depth standing.inDocstring (raw :: rest) =
        declared ++ joinLines left (standing.next raw).depth (standing.next raw).inDocstring
          rest := by
  obtain ⟨depth, inDocstring⟩ := standing
  dsimp only at idle
  cases inDocstring with
  | true => exact ⟨[], pending, idle, fun rest => by rw [joinLines, if_pos rfl]; rfl⟩
  | false =>
    by_cases fence : depth = 0 ∧ opensDocstring (trim raw) = true
    · have next : Standing.next ⟨depth, false⟩ raw =
          ⟨depth, fenceCount (trim raw) % 2 == 1⟩ := by
        rw [Standing.next, if_neg Bool.false_ne_true, if_pos fence]
      rw [next]
      refine ⟨[], pending, idle, fun rest => ?_⟩
      rw [joinLines, if_neg Bool.false_ne_true, if_pos fence]
      rfl
    · have next : Standing.next ⟨depth, false⟩ raw =
          ⟨max 0 (depth + bracketDelta (trimEnd (stripComment raw))), false⟩ := by
        rw [Standing.next, if_neg Bool.false_ne_true, if_neg fence]
      rw [next]
      simp only [joinLines_of_code fence, joinCode]
      generalize trimEnd (stripComment raw) = line
      by_cases closed : depth + bracketDelta line ≤ 0
      · rw [Int.max_eq_left closed]
        exact ⟨[_], [], fun _ => rfl, fun rest => if_pos closed⟩
      · rw [Int.max_eq_right (by omega)]
        exact ⟨[], _, fun none => absurd (Int.le_of_eq none) closed, fun rest => if_neg closed⟩

/-- So do the lines at the start of a source. -/
theorem exists_joinLines_append (before : List (List Char)) :
    ∃ declared left, ((Standing.after before).depth = 0 → left = []) ∧
      ∀ rest, joinLines [] 0 false (before ++ rest) =
        declared ++ joinLines left (Standing.after before).depth
          (Standing.after before).inDocstring rest := by
  induction before using List.reverseRecOn with
  | nil => exact ⟨[], [], fun _ => rfl, fun _ => rfl⟩
  | append_singleton before raw inductionHypothesis =>
    obtain ⟨declared, pending, idle, joins⟩ := inductionHypothesis
    obtain ⟨further, left, nextIdle, next⟩ :=
      (Standing.after before).exists_joinLines_cons raw idle
    have after : Standing.after (before ++ [raw]) = (Standing.after before).next raw :=
      List.foldl_concat ..
    rw [after]
    refine ⟨declared ++ further, left, nextIdle, fun rest => ?_⟩
    rw [List.append_assoc, List.singleton_append, joins, next, List.append_assoc]

/-! ### Changes of layout -/

/-- A line of code: no docstring is open in front of it, and it does not open one. -/
def Standing.IsCode (standing : Standing) (raw : List Char) : Prop :=
  standing.inDocstring = false ∧ ¬(standing.depth = 0 ∧ opensDocstring (trim raw) = true)

/-- A line falls into two parts at a space outside its literals and its comment, with so many
brackets open behind the first part. -/
structure Parted (first second : List Char) (depth : Int) : Prop where
  outside : Scan.start.run first = .outside depth
  uncommented : stripComment first = first
  last : ∃ c ∈ first.getLast?, isBlank c = false
  head : ∃ c ∈ second.head?, isBlank c = false ∧ c ≠ '#'

/-- One change to the layout of lines. Brackets are counted from the start of the declaration that
the lines are joined to; literals and comments end with their line. -/
inductive Relaid : List (List Char) → List (List Char) → Prop where
  /-- A line is added that is blank or holds a comment only. -/
  | insert {before after : List (List Char)} {line : List Char}
      (between : Standing.after before = {}) (bare : ∀ c ∈ (trimStart line).head?, c = '#') :
      Relaid (before ++ after) (before ++ line :: after)
  /-- A comment is added to a line whose literals are closed. -/
  | remark {before after : List (List Char)} {line : List Char} {depth : Int}
      (code : (Standing.after before).IsCode line)
      (outside : Scan.start.run (stripComment line) = .outside depth) (comment : List Char) :
      Relaid (before ++ line :: after) (before ++ (line ++ "  # ".toList ++ comment) :: after)
  /-- A space between brackets, outside literals and comments, gives way to a line end. -/
  | wrap {before after : List (List Char)} {first second indent : List Char} {depth : Int}
      (code : (Standing.after before).IsCode (first ++ ' ' :: second))
      (parted : Parted first second depth)
      (opened : 0 < (Standing.after before).depth + depth)
      (blank : ∀ c ∈ indent, isBlank c = true) :
      Relaid (before ++ (first ++ ' ' :: second) :: after)
        (before ++ first :: (indent ++ second) :: after)

theorem opensDocstring_of_bare {line : List Char} (bare : ∀ c ∈ (trimStart line).head?, c = '#') :
    opensDocstring (trim line) = false := by
  rw [trim]
  cases shown : trimStart line with
  | nil => rfl
  | cons c rest =>
    obtain rfl : c = '#' := bare c (by rw [shown]; rfl)
    rw [trimEnd_cons rfl]
    rfl

/-- A bare line is an empty declaration. -/
theorem joinLines_of_bare {line : List Char} (bare : ∀ c ∈ (trimStart line).head?, c = '#')
    (rest : List (List Char)) :
    joinLines [] 0 false (line :: rest) = [] :: joinLines [] 0 false rest := by
  have blank : ∀ c ∈ line.takeWhile isBlank, isBlank c = true := fun c =>
    List.mem_takeWhile_imp
  have stripped : stripComment (trimStart line) = [] := by
    cases shown : trimStart line with
    | nil => rfl
    | cons c others =>
      obtain rfl : c = '#' := bare c (by rw [shown]; rfl)
      rfl
  have empty : trimEnd (stripComment line) = [] := by
    conv_lhs => rw [← List.takeWhile_append_dropWhile (p := isBlank) (l := line)]
    rw [stripComment_blanks_append blank, ← trimStart, stripped, List.append_nil]
    exact trimEnd_append_blanks [] blank
  have undocumented : ¬((0 : Int) = 0 ∧ opensDocstring (trim line) = true) := by
    rw [opensDocstring_of_bare bare]
    exact fun both => Bool.false_ne_true both.2
  rw [joinLines_of_code undocumented, empty]
  rfl

/-- A line counts without the comment added to it. -/
theorem joinLines_of_remarked {standing : Standing} {line : List Char} {depth : Int}
    (code : standing.IsCode line) (outside : Scan.start.run (stripComment line) = .outside depth)
    (comment pending : List Char) (rest : List (List Char)) :
    joinLines pending standing.depth false ((line ++ "  # ".toList ++ comment) :: rest) =
      joinLines pending standing.depth false (line :: rest) := by
  have undocumented : opensDocstring (trim (line ++ "  # ".toList ++ comment)) = true →
      opensDocstring (trim line) = true := by
    intro fence
    by_cases shown : trimStart line = []
    · have blank : ∀ c ∈ line, isBlank c = true := List.dropWhile_eq_nil_iff.1 shown
      have bare : ∀ c ∈ (trimStart (line ++ "  # ".toList ++ comment)).head?, c = '#' := by
        rw [List.append_assoc, trimStart_blanks_append blank]
        rintro c ⟨⟩
        rfl
      exact absurd (opensDocstring_of_bare bare ▸ fence) Bool.false_ne_true
    · rwa [List.append_assoc, show "  # ".toList ++ comment = ' ' :: (" # ".toList ++ comment) from
        rfl, opensDocstring_append shown] at fence
  have same : trimEnd (stripComment (line ++ "  # ".toList ++ comment)) =
      trimEnd (stripComment line) := by
    rw [List.append_assoc]
    by_cases uncommented : stripComment line = line
    · have blank : ∀ c ∈ [' ', ' '], isBlank c = true := List.all_eq_true.1 rfl
      rw [uncommented] at outside ⊢
      rw [stripComment_append uncommented outside]
      exact trimEnd_append_blanks line blank
    · rw [stripComment_append_of_commented uncommented]
  rw [joinLines_of_code fun fence => code.2 ⟨fence.1, undocumented fence.2⟩,
    joinLines_of_code code.2, same]

namespace Parted

variable {first second : List Char} {depth : Int} (parted : Parted first second depth)
include parted

theorem isBlank_getLast? : ∀ c ∈ first.getLast?, isBlank c = false := by
  obtain ⟨c, isLast, solid⟩ := parted.last
  exact fun other member => Option.some.inj (isLast.symm.trans member) ▸ solid

theorem trimStart_ne_nil : trimStart first ≠ [] := by
  obtain ⟨c, isLast, solid⟩ := parted.last
  intro none
  have blank := List.dropWhile_eq_nil_iff.1 none c (List.mem_of_getLast? isLast)
  exact Bool.false_ne_true (solid.symm.trans blank)

theorem trimEnd_first : trimEnd (stripComment first) = first := by
  rw [parted.uncommented, trimEnd_eq_self parted.isBlank_getLast?]

/-- Something of the second part is left without its comment. -/
theorem exists_second : ∃ c rest,
    trimEnd (stripComment second) = c :: rest ∧ isBlank c = false := by
  obtain ⟨c, isHead, visible, apart⟩ := parted.head
  obtain ⟨others, rfl⟩ := List.head?_eq_some_iff.1 isHead
  obtain ⟨kept, stripped⟩ := exists_stripComment_cons apart others
  exact ⟨c, trimEnd kept, by rw [stripped, trimEnd_cons visible], visible⟩

theorem trimEnd_append_second (before : List Char) :
    trimEnd (before ++ stripComment second) = before ++ trimEnd (stripComment second) := by
  obtain ⟨c, rest, spelled, -⟩ := parted.exists_second
  exact trimEnd_append before (spelled ▸ List.cons_ne_nil c rest)

theorem trimEnd_whole : trimEnd (stripComment (first ++ ' ' :: second)) =
    first ++ ' ' :: trimEnd (stripComment second) := by
  rw [stripComment_append parted.uncommented parted.outside,
    stripComment_cons_of_plain rfl (by decide), List.append_cons, parted.trimEnd_append_second,
    ← List.append_cons]

theorem trim_whole : trim (first ++ ' ' :: trimEnd (stripComment second)) =
    trim first ++ ' ' :: trimEnd (stripComment second) := by
  have solid : ∀ c ∈ (first ++ ' ' :: trimEnd (stripComment second)).getLast?,
      isBlank c = false := by
    obtain ⟨c, rest, spelled, -⟩ := parted.exists_second
    rw [List.getLast?_append_of_ne_nil _ (List.cons_ne_nil _ _), spelled, List.getLast?_cons_cons,
      ← spelled]
    exact isBlank_getLast?_trimEnd (stripComment second)
  rw [trim_eq_trimStart solid, trimStart_append parted.trimStart_ne_nil,
    trim_eq_trimStart parted.isBlank_getLast?]

section Indented

variable {indent : List Char} (blank : ∀ c ∈ indent, isBlank c = true)
include blank

theorem trimEnd_indented : trimEnd (stripComment (indent ++ second)) =
    indent ++ trimEnd (stripComment second) := by
  rw [stripComment_blanks_append blank, parted.trimEnd_append_second]

theorem trim_indented : trim (indent ++ trimEnd (stripComment second)) =
    trimEnd (stripComment second) := by
  obtain ⟨c, rest, spelled, visible⟩ := parted.exists_second
  rw [trim, trimStart_blanks_append blank, ← trim]
  refine trim_eq_self (fun other isHead => ?_) (isBlank_getLast?_trimEnd _)
  rw [spelled] at isHead
  exact Option.some.inj isHead ▸ visible

/-- The parts open as many brackets as the line. -/
theorem bracketDelta_parts : bracketDelta (first ++ ' ' :: trimEnd (stripComment second)) =
    depth + bracketDelta (indent ++ trimEnd (stripComment second)) := by
  have plain : Balanced indent :=
    balanced_of_plain fun c member => isPlain_of_isBlank (blank c member)
  rw [bracketDelta_append parted.outside, bracketDelta_append (plain.ends 0), Int.zero_add]
  rfl

end Indented

/-- A declaration goes on in the next line as it did behind a space. -/
theorem joinLines_eq {standing : Standing} (code : standing.IsCode (first ++ ' ' :: second))
    (opened : 0 < standing.depth + depth) {indent : List Char}
    (blank : ∀ c ∈ indent, isBlank c = true) (pending : List Char) (rest : List (List Char)) :
    joinLines pending standing.depth false (first :: (indent ++ second) :: rest) =
      joinLines pending standing.depth false ((first ++ ' ' :: second) :: rest) := by
  have undocumented : ¬(standing.depth = 0 ∧ opensDocstring (trim first) = true) :=
    opensDocstring_append parted.trimStart_ne_nil second ▸ code.2
  have delta : bracketDelta first = depth := congrArg Scan.depth parted.outside
  rw [joinLines_of_code undocumented, parted.trimEnd_first, joinCode, delta,
    if_neg (Int.not_le.2 opened), joinLines_of_code fun fence => (Int.ne_of_gt opened) fence.1,
    parted.trimEnd_indented blank, joinLines_of_code code.2, parted.trimEnd_whole, joinCode,
    joinCode, parted.bracketDelta_parts blank, ← Int.add_assoc, if_neg (Int.ne_of_gt opened),
    parted.trim_indented blank, parted.trim_whole]
  generalize trimEnd (stripComment second) = tail
  have joined :
      (pending ++ if standing.depth = 0 then first else ' ' :: trim first) ++ ' ' :: tail =
      pending ++ if standing.depth = 0 then first ++ ' ' :: tail
        else ' ' :: (trim first ++ ' ' :: tail) := by
    split <;> simp
  rw [joined]

end Parted

/-- The declarations of lines are those before a change of their layout, but for empty ones. -/
theorem filter_joinLines_of_relaid {source changed : List (List Char)}
    (relaid : Relaid source changed) :
    (joinLines [] 0 false changed).filter (!·.isEmpty) =
      (joinLines [] 0 false source).filter (!·.isEmpty) := by
  cases relaid with
  | @insert before after line between bare =>
    obtain ⟨declared, pending, idle, joins⟩ := exists_joinLines_append before
    rw [between] at idle joins
    obtain rfl := idle rfl
    rw [joins, joins, joinLines_of_bare bare, List.filter_append, List.filter_append]
    rfl
  | @remark before after line depth code outside comment =>
    obtain ⟨declared, pending, -, joins⟩ := exists_joinLines_append before
    rw [joins, joins, code.1, joinLines_of_remarked code outside]
  | @wrap before after first second indent depth code parted opened blank =>
    obtain ⟨declared, pending, -, joins⟩ := exists_joinLines_append before
    rw [joins, joins, code.1, parted.joinLines_eq code opened blank]

/-! ### Declarations that are empty -/

theorem Bindings.ofLines_filter (lines : List (List Char)) :
    Bindings.ofLines (lines.filter (!·.isEmpty)) = Bindings.ofLines lines := by
  rw [Bindings.ofLines, Bindings.ofLines, List.filter_comm, List.foldl_filter]
  congr 1
  funext bindings line
  cases line <;> rfl

theorem gatherBlocks_filter (environment : Environment) (lines : List (List Char)) :
    gatherBlocks environment (lines.filter (!·.isEmpty)) = gatherBlocks environment lines := by
  rw [gatherBlocks, gatherBlocks, List.foldl_filter]
  congr 3
  funext gathering line
  cases line <;> rfl

end Declaration

open Declaration

/-- What a source declares does not depend on its layout. -/
theorem Schema.parse_relaid {source changed : String}
    (edits : Relation.ReflTransGen Relaid (lines source.toList) (lines changed.toList)) :
    Schema.parse changed = Schema.parse source := by
  have same : (logicalLines changed.toList).filter (!·.isEmpty) =
      (logicalLines source.toList).filter (!·.isEmpty) := by
    rw [logicalLines, logicalLines]
    generalize lines changed.toList = last at edits
    induction edits with
    | refl => rfl
    | tail _ relaid inductionHypothesis =>
      exact (filter_joinLines_of_relaid relaid).trans inductionHypothesis
  rw [Schema.parse, Schema.parse, ← Bindings.ofLines_filter, ← gatherBlocks_filter, same,
    Bindings.ofLines_filter, gatherBlocks_filter]

/-- A class with two comments and a field that goes on in the next line is the class without
them on two lines. -/
theorem Schema.parse_relaid_model :
    Schema.parse "# models\nclass A(BaseModel):  # first\n    x: int = Field(1,\n      title='T')\n" =
      Schema.parse "class A(BaseModel):\n    x: int = Field(1, title='T')\n" := by
  have source : lines "class A(BaseModel):\n    x: int = Field(1, title='T')\n".toList =
      ["class A(BaseModel):".toList, "    x: int = Field(1, title='T')".toList] := by
    decide +kernel
  have changed : lines
      "# models\nclass A(BaseModel):  # first\n    x: int = Field(1,\n      title='T')\n".toList =
      ["# models".toList, "class A(BaseModel):  # first".toList, "    x: int = Field(1,".toList,
        "      title='T')".toList] := by
    decide +kernel
  have parted : Parted "    x: int = Field(1,".toList "title='T')".toList 1 :=
    ⟨by decide, by decide, ⟨',', rfl, rfl⟩, ⟨'t', rfl, by decide⟩⟩
  have wrapped := @Relaid.wrap ["class A(BaseModel):".toList] [] _ _ "      ".toList 1
    ⟨rfl, by decide⟩ parted (by decide) (List.all_eq_true.1 rfl)
  have remarked := @Relaid.remark [] ["    x: int = Field(1,".toList, "      title='T')".toList]
    "class A(BaseModel):".toList 0 ⟨rfl, by decide⟩ (by decide) "first".toList
  have inserted := @Relaid.insert [] ["class A(BaseModel):  # first".toList,
    "    x: int = Field(1,".toList, "      title='T')".toList] "# models".toList rfl
    fun c isHead => (Option.some.inj isHead).symm
  have edits := ((Relation.ReflTransGen.single wrapped).tail remarked).tail inserted
  refine Schema.parse_relaid ?_
  rw [source, changed]
  exact edits

end Workflow
