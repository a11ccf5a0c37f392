/-
This file takes texts apart into dotted names and the characters between them, and
proves what putting other texts in the place of the names does.

A name goes on as long as it can, so the character behind it could not belong to it, and
neither can it belong to what takes the place of the name. The names of a text are then
those of what takes their places, one after the other. A name stands inside a string
literal or outside; the number of quotes tells texts with literals from those without.
-/

import Workflow.Proofs.Text.Word
import Workflow.Schema.Declaration.Shape

namespace Workflow.Declaration

open Text

/-! ### Pieces -/

/-- A piece of a text: a dotted name, as long as it goes, or a character that opens none. -/
inductive Piece where
  | name (word : String) (quoted : Bool)
  | other (c : Char)

/-- The pieces of a text, given where the scan of it stands. A name is quoted if it belongs to a
string literal. -/
def pieces (scan : Scan) : List Char → List Piece
  | [] => []
  | c :: rest =>
    if opensName c then
      have : (rest.dropWhile isDottedWord).length < (c :: rest).length :=
        Nat.lt_succ_of_le (List.dropWhile_sublist isDottedWord).length_le
      .name (String.ofList (c :: rest.takeWhile isDottedWord)) (scan.mark c).isNone ::
        pieces (scan.run (c :: rest.takeWhile isDottedWord)) (rest.dropWhile isDottedWord)
    else .other c :: pieces (scan.step c) rest
termination_by text => text.length
decreasing_by all_goals simp only [List.length_cons] at *; omega

/-- The name that a piece is, wherever it stands. -/
def Piece.name? : Piece → Option String
  | name word _ => some word
  | other _ => none

/-- The names in a text, inside literals and outside. -/
def names (text : List Char) : List String := (pieces .start text).filterMap Piece.name?

/-- The name that a piece is if it stands inside a literal, or if it stands outside. -/
def Piece.nameAt? (quoted : Bool) : Piece → Option String
  | name word within => if within = quoted then some word else none
  | other _ => none

/-- The names in the literals of a text, or those outside. -/
def namesAt (quoted : Bool) (text : List Char) : List String :=
  (pieces .start text).filterMap (Piece.nameAt? quoted)

/-- A piece with another text for it if it is a name. -/
def Piece.respell (spell : String → Bool → String) : Piece → List Char
  | name word quoted => (spell word quoted).toList
  | other c => [c]

/-- A text with other texts in the place of its names. -/
def respell (spell : String → Bool → String) (scan : Scan) (text : List Char) : List Char :=
  (pieces scan text).flatMap (Piece.respell spell)

section Pieces

variable {scan : Scan} {c : Char} {word : String} {quoted : Bool} {text rest : List Char}

theorem isDottedWord_of_opensName (opens : opensName c = true) : isDottedWord c = true := by
  rw [isDottedWord, isWord_of_opensName opens, Bool.true_or]

/-- A name opens as names do and goes on with characters of dotted names. -/
theorem exists_of_name_mem (member : .name word quoted ∈ pieces scan text) :
    ∃ c rest, word = String.ofList (c :: rest) ∧ opensName c = true ∧
      ∀ d ∈ rest, isDottedWord d = true := by
  fun_induction pieces scan text with
  | case1 => cases member
  | case2 scan c rest opens _ inductionHypothesis =>
    rcases List.mem_cons.1 member with same | later
    · cases same
      exact ⟨c, _, rfl, opens, List.all_eq_true.1 List.all_takeWhile⟩
    · exact inductionHypothesis later
  | case3 scan c rest _ inductionHypothesis =>
    rcases List.mem_cons.1 member with same | later
    · cases same
    · exact inductionHypothesis later

theorem names_eq (scan : Scan) (text : List Char) :
    (pieces scan text).filterMap Piece.name? = names text := by
  have same (other : Scan) :
      (pieces scan text).filterMap Piece.name? = (pieces other text).filterMap Piece.name? := by
    fun_induction pieces scan text generalizing other with
    | case1 => rw [pieces]
    | case2 scan c rest opens _ inductionHypothesis =>
      rw [pieces, if_pos opens]
      exact congrArg (_ :: ·) (inductionHypothesis _)
    | case3 scan c rest closed inductionHypothesis =>
      rw [pieces, if_neg closed]
      exact inductionHypothesis _
  exact same .start

theorem mem_names_iff (scan : Scan) (text : List Char) :
    word ∈ names text ↔ ∃ quoted, .name word quoted ∈ pieces scan text := by
  rw [← names_eq scan, List.mem_filterMap]
  constructor
  · rintro ⟨piece, member, isName⟩
    cases piece with
    | name other quoted =>
      cases isName
      exact ⟨quoted, member⟩
    | other c => cases isName
  · rintro ⟨quoted, member⟩
    exact ⟨_, member, rfl⟩

theorem mem_namesAt_iff : word ∈ namesAt quoted text ↔ .name word quoted ∈ pieces .start text := by
  rw [namesAt, List.mem_filterMap]
  constructor
  · rintro ⟨piece, member, isName⟩
    cases piece with
    | name other within =>
      obtain ⟨rfl, same⟩ := Option.ite_none_right_eq_some.1 isName
      cases same
      exact member
    | other c => cases isName
  · exact fun member => ⟨_, member, if_pos rfl⟩

theorem names_cons_of_not (closed : ¬opensName c = true) : names (c :: text) = names text := by
  rw [names, pieces, if_neg closed, List.filterMap_cons_none rfl, names_eq]

/-- A name is the only one in its own text. -/
theorem names_of_name_mem (member : .name word quoted ∈ pieces scan text) :
    names word.toList = [word] := by
  obtain ⟨c, rest, rfl, opens, dotted⟩ := exists_of_name_mem member
  have whole := List.takeWhile_eq_self_iff.2 dotted
  have empty := List.dropWhile_eq_nil_iff.2 dotted
  rw [String.toList_ofList, names, pieces, if_pos opens, whole, empty, pieces]
  rfl

/-! ### Names next to other texts -/

/-- A text that does not carry on a name in front of it. -/
def Apart (text : List Char) : Prop := ∀ c ∈ text.head?, isDottedWord c = false

theorem apart_dropWhile (text : List Char) : Apart (text.dropWhile isDottedWord) := by
  intro c first
  have stopped := List.head?_dropWhile_not isDottedWord text
  rw [Option.mem_def.1 first] at stopped
  exact stopped

theorem Apart.takeWhile_append (apart : Apart rest) (text : List Char) :
    (text ++ rest).takeWhile isDottedWord = text.takeWhile isDottedWord := by
  have stop : rest.takeWhile isDottedWord = [] := by
    cases rest with
    | nil => rfl
    | cons c others =>
      exact List.takeWhile_cons_of_neg (by rw [apart c rfl]; exact Bool.false_ne_true)
  rw [List.takeWhile_append, stop, List.append_nil]
  split
  · next whole => exact ((List.takeWhile_sublist isDottedWord).eq_of_length whole).symm
  · rfl

theorem Apart.dropWhile_append (apart : Apart rest) (text : List Char) :
    (text ++ rest).dropWhile isDottedWord = text.dropWhile isDottedWord ++ rest := by
  have same : text.takeWhile isDottedWord ++ (text ++ rest).dropWhile isDottedWord =
      text.takeWhile isDottedWord ++ (text.dropWhile isDottedWord ++ rest) := by
    rw [← List.append_assoc, List.takeWhile_append_dropWhile, ← apart.takeWhile_append text,
      List.takeWhile_append_dropWhile]
  exact List.append_cancel_left same

/-- Texts next to each other have the pieces of both if no name goes on from one to the other. -/
theorem Apart.pieces_append (apart : Apart rest) (scan : Scan) (text : List Char) :
    pieces scan (text ++ rest) = pieces scan text ++ pieces (scan.run text) rest := by
  fun_induction pieces scan text with
  | case1 => rfl
  | case2 scan c others opens _ inductionHypothesis =>
    have run : (scan.run (c :: others.takeWhile isDottedWord)).run
        (others.dropWhile isDottedWord) = scan.run (c :: others) := by
      rw [Scan.run, Scan.run, Scan.run, ← List.foldl_append, List.cons_append,
        List.takeWhile_append_dropWhile]
    rw [List.cons_append, pieces, if_pos opens, apart.takeWhile_append, apart.dropWhile_append,
      inductionHypothesis, run]
    rfl
  | case3 scan c others closed inductionHypothesis =>
    rw [List.cons_append, pieces, if_neg closed, inductionHypothesis]
    rfl

theorem Apart.names_append (apart : Apart rest) (text : List Char) :
    names (text ++ rest) = names text ++ names rest := by
  rw [names, apart.pieces_append, List.filterMap_append, names_eq, names_eq]

end Pieces

/-! ### Other texts in the place of names -/

section Respell

variable {spell other : String → Bool → String} {scan : Scan} {text : List Char}

theorem respell_id (scan : Scan) (text : List Char) :
    respell (fun word _ => word) scan text = text := by
  fun_induction pieces scan text with
  | case1 => rw [respell, pieces, List.flatMap_nil]
  | case2 scan c rest opens _ inductionHypothesis =>
    rw [respell, pieces, if_pos opens, List.flatMap_cons, ← respell, inductionHypothesis,
      Piece.respell, String.toList_ofList, List.cons_append, List.takeWhile_append_dropWhile]
  | case3 scan c rest closed inductionHypothesis =>
    rw [respell, pieces, if_neg closed, List.flatMap_cons, ← respell, inductionHypothesis]
    rfl

theorem respell_congr
    (same : ∀ word quoted, .name word quoted ∈ pieces scan text →
      spell word quoted = other word quoted) :
    respell spell scan text = respell other scan text := by
  refine List.flatMap_congr fun piece member => ?_
  cases piece with
  | name word quoted => exact congrArg String.toList (same word quoted member)
  | other c => rfl

/-- A text is left as it is if all its names are. -/
theorem respell_eq_self
    (same : ∀ word quoted, .name word quoted ∈ pieces scan text → spell word quoted = word) :
    respell spell scan text = text := (respell_congr same).trans (respell_id scan text)

theorem Apart.respell (apart : Apart text) (spell : String → Bool → String) (scan : Scan) :
    Apart (respell spell scan text) := by
  cases text with
  | nil => rwa [Declaration.respell, pieces]
  | cons c rest =>
    have stop := apart c rfl
    have closed : ¬opensName c = true := fun opens =>
      Bool.false_ne_true (stop.symm.trans (isDottedWord_of_opensName opens))
    rw [Declaration.respell, pieces, if_neg closed]
    rintro _ ⟨⟩
    exact stop

/-- The names of a text with other texts in the place of its names are those of these texts. -/
theorem mem_names_respell {name : String} :
    name ∈ names (respell spell scan text) ↔
      ∃ word quoted, .name word quoted ∈ pieces scan text ∧
        name ∈ names (spell word quoted).toList := by
  fun_induction pieces scan text with
  | case1 => simp [respell, pieces, names]
  | case2 scan c rest opens _ inductionHypothesis =>
    have apart := (apart_dropWhile rest).respell spell
      (scan.run (c :: rest.takeWhile isDottedWord))
    rw [respell, pieces, if_pos opens, List.flatMap_cons, ← respell, Piece.respell,
      apart.names_append, List.mem_append, inductionHypothesis]
    constructor
    · rintro (inFirst | ⟨word, quoted, later, isName⟩)
      · exact ⟨_, _, List.mem_cons_self, inFirst⟩
      · exact ⟨word, quoted, List.mem_cons_of_mem _ later, isName⟩
    · rintro ⟨word, quoted, listed, isName⟩
      rcases List.mem_cons.1 listed with same | later
      · cases same
        exact Or.inl isName
      · exact Or.inr ⟨word, quoted, later, isName⟩
  | case3 scan c rest closed inductionHypothesis =>
    rw [respell, pieces, if_neg closed, List.flatMap_cons, ← respell, Piece.respell,
      List.singleton_append, names_cons_of_not closed, inductionHypothesis]
    simp only [List.mem_cons, reduceCtorEq, false_or]

/-! ### Quotes -/

/-- How many quotes a text holds. -/
def quoteCount (text : List Char) : Nat := text.countP isQuote

theorem quoteCount_append (text rest : List Char) :
    quoteCount (text ++ rest) = quoteCount text + quoteCount rest := List.countP_append

theorem quoteCount_flatMap_le {parts : List Piece}
    (fewer : ∀ word quoted, .name word quoted ∈ parts →
      quoteCount (spell word quoted).toList ≤ quoteCount (other word quoted).toList) :
    quoteCount (parts.flatMap (Piece.respell spell)) ≤
      quoteCount (parts.flatMap (Piece.respell other)) := by
  induction parts with
  | nil => exact Nat.le_refl _
  | cons piece rest inductionHypothesis =>
    have first : quoteCount (piece.respell spell) ≤ quoteCount (piece.respell other) := by
      cases piece with
      | name word quoted => exact fewer word quoted List.mem_cons_self
      | other c => exact Nat.le_refl _
    have later := inductionHypothesis fun word quoted member =>
      fewer word quoted (List.mem_cons_of_mem _ member)
    rw [List.flatMap_cons, List.flatMap_cons, quoteCount_append, quoteCount_append]
    exact Nat.add_le_add first later

/-- A name holds no quotes. -/
theorem quoteCount_of_name_mem {word : String} {quoted : Bool}
    (member : .name word quoted ∈ pieces scan text) : quoteCount word.toList = 0 := by
  obtain ⟨c, rest, rfl, opens, dotted⟩ := exists_of_name_mem member
  have unquoted {d : Char} (isDotted : isDottedWord d = true) : ¬isQuote d = true := by
    intro isQuote
    rw [Text.isQuote, Bool.or_eq_true, beq_iff_eq, beq_iff_eq] at isQuote
    obtain rfl | rfl := isQuote <;> exact absurd isDotted (by decide)
  rw [String.toList_ofList, quoteCount, List.countP_eq_zero]
  exact List.forall_mem_cons.2 ⟨unquoted (isDottedWord_of_opensName opens),
    fun d later => unquoted (dotted d later)⟩

/-- Putting texts in the place of names loses no quotes. -/
theorem quoteCount_le_respell (spell : String → Bool → String) (scan : Scan) (text : List Char) :
    quoteCount text ≤ quoteCount (respell spell scan text) := by
  conv_lhs => rw [← respell_id scan text]
  refine quoteCount_flatMap_le fun word quoted member => ?_
  rw [quoteCount_of_name_mem member]
  exact Nat.zero_le _

/-- A text keeps its quotes and gains those of whatever takes the place of a name. -/
theorem quoteCount_add_le_respell (spell : String → Bool → String) {word : String} {quoted : Bool}
    (member : .name word quoted ∈ pieces scan text) :
    quoteCount text + quoteCount (spell word quoted).toList ≤
      quoteCount (respell spell scan text) := by
  obtain ⟨before, after, split⟩ := List.append_of_mem member
  have kept {parts : List Piece} (within : parts ⊆ pieces scan text) :
      quoteCount (parts.flatMap (Piece.respell fun word _ => word)) ≤
        quoteCount (parts.flatMap (Piece.respell spell)) := by
    refine quoteCount_flatMap_le fun word quoted listed => ?_
    rw [quoteCount_of_name_mem (within listed)]
    exact Nat.zero_le _
  have front := kept (split ▸ List.subset_append_left before _)
  have back := kept (split ▸ List.subset_append_of_subset_right before (List.subset_cons_self _ _))
  have own := quoteCount_of_name_mem member
  nth_rewrite 1 [← respell_id scan text]
  rw [respell, respell, split, List.flatMap_append, List.flatMap_append, List.flatMap_cons,
    List.flatMap_cons, quoteCount_append, quoteCount_append, quoteCount_append, quoteCount_append,
    Piece.respell, Piece.respell, own]
  omega

theorem step_outside {c : Char} (unquoted : ¬isQuote c = true) (depth : Int) :
    ∃ next, (Scan.outside depth).step c = .outside next := by
  rw [Scan.step, if_neg unquoted]
  repeat' split
  all_goals exact ⟨_, rfl⟩

theorem run_outside (unquoted : ∀ c ∈ text, ¬isQuote c = true) (depth : Int) :
    ∃ next, (Scan.outside depth).run text = .outside next := by
  induction text generalizing depth with
  | nil => exact ⟨depth, rfl⟩
  | cons c rest inductionHypothesis =>
    obtain ⟨first, later⟩ := List.forall_mem_cons.1 unquoted
    obtain ⟨next, step⟩ := step_outside first depth
    rw [Scan.run, List.foldl_cons, step]
    exact inductionHypothesis later next

/-- The names of a text without quotes stand outside literals. -/
theorem unquoted_of_quoteCount {word : String} {quoted : Bool} {depth : Int}
    (none : quoteCount text = 0) (member : .name word quoted ∈ pieces (.outside depth) text) :
    quoted = false := by
  have unquoted := List.countP_eq_zero.1 none
  clear none
  generalize start : Scan.outside depth = scan at member
  fun_induction pieces scan text generalizing depth with
  | case1 => cases member
  | case2 scan c rest opens _ inductionHypothesis =>
    obtain ⟨first, later⟩ := List.forall_mem_cons.1 unquoted
    rcases List.mem_cons.1 member with same | inRest
    · cases same
      rw [← start, Scan.mark, if_neg first]
      split <;> rfl
    · have isName : ∀ d ∈ c :: rest.takeWhile isDottedWord, ¬isQuote d = true :=
        List.forall_mem_cons.2
          ⟨first, fun d inName => later d ((List.takeWhile_sublist _).mem inName)⟩
      obtain ⟨next, run⟩ := run_outside isName depth
      rw [start] at run
      exact inductionHypothesis
        (fun d member => later d ((List.dropWhile_sublist _).mem member)) run.symm inRest
  | case3 scan c rest closed inductionHypothesis =>
    obtain ⟨first, later⟩ := List.forall_mem_cons.1 unquoted
    obtain ⟨next, step⟩ := step_outside first depth
    rw [start] at step
    rcases List.mem_cons.1 member with same | inRest
    · cases same
    · exact inductionHypothesis later step.symm inRest

end Respell

end Workflow.Declaration
