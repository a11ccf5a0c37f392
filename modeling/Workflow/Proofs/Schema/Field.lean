/-
This file proves that a written field is read as the member it declares.

The equals sign and the comma that the declaration is divided at are the first ones
outside literals and brackets, because the type stands in brackets that it cannot close
and has no comma of its own at the level of the markers.
-/

import Workflow.Proofs.Schema.Default
import Workflow.Proofs.Schema.Lines

namespace Workflow

open Text Declaration

/-! ### Division at an equals sign -/

namespace Text

theorem trim_concat_of_blank {c : Char} (blank : isBlank c = true) (text : List Char) :
    trim (text ++ [c]) = trim text := by
  cases front : trimStart text with
  | nil =>
    have blanks := List.dropWhile_eq_nil_iff.1 front
    rw [trim, trim, front, trimStart, List.dropWhile_append_of_pos blanks,
      List.dropWhile_cons_of_pos blank]
    rfl
  | cons first rest =>
    rw [trim, trim, front, trimStart, List.dropWhile_append]
    rw [trimStart] at front
    rw [front, List.isEmpty_cons, if_neg Bool.false_ne_true, trimEnd, List.reverse_append,
      List.reverse_singleton, List.singleton_append, List.dropWhile_cons_of_pos blank]
    rfl

theorem cutAssignMarked_append {front : List Marked} (absent : ('=', some 0) ∉ front)
    {previous : Char} {rest : List Marked}
    (single : isComparisonStart ((front.map Prod.fst).getLast?.getD previous) = false)
    (ends : rest.head?.map Prod.fst ≠ some '=') :
    cutAssignMarked previous (front ++ ('=', some 0) :: rest) =
      some (front.map Prod.fst, rest.map Prod.fst) := by
  induction front generalizing previous with
  | nil =>
    rw [List.nil_append, cutAssignMarked, if_pos]
    · rfl
    · exact ⟨rfl, rfl, by rw [show isComparisonStart previous = false from single]; rfl, ends⟩
  | cons entry front inductionHypothesis =>
    obtain ⟨c, mark⟩ := entry
    obtain ⟨apart, absent⟩ := not_or.1 fun either => absent (List.mem_cons.2 either)
    rw [List.cons_append, cutAssignMarked, if_neg, inductionHypothesis absent]
    · rfl
    · rw [List.map_cons, List.getLast?_cons] at single
      exact single
    · rintro ⟨rfl, rfl, -⟩
      exact apart rfl

/-- A text is cut at the first equals sign outside literals and brackets. -/
theorem cutAssign_append {before : List Char} (balanced : Balanced before)
    (undivided : Undivided '=' before)
    (single : isComparisonStart (before.getLast?.getD ' ') = false) {after : List Char}
    (ends : after.head? ≠ some '=') :
    cutAssign (before ++ '=' :: after) = some (before, after) := by
  have head : (marked (.outside 0) after).head?.map Prod.fst = after.head? := by
    rw [← List.head?_map, map_fst_marked]
  rw [cutAssign, Scan.start, marked_append, balanced.ends, marked, step_of_isPlain 0 rfl,
    mark_of_isPlain 0 rfl, cutAssignMarked_append (undivided 0), map_fst_marked, map_fst_marked]
  · rw [map_fst_marked]
    exact single
  · rw [head]
    exact ends

theorem cutAssign_eq_none {text : List Char} (undivided : Undivided '=' text) :
    cutAssign text = none := cutAssignMarked_eq_none (undivided 0) ' '

end Text

/-! ### Names and aliases -/

namespace Declaration

/-- A name is read up to what cannot go on with it. -/
theorem scanName_append {name : List Char} (named : isIdentifier name = true) {mark : Char}
    (other : isWord mark = false) (rest : List Char) :
    scanName (name ++ mark :: rest) = some (name, mark :: rest) := by
  obtain ⟨c, tail, rfl, opens, words⟩ := exists_of_isIdentifier named
  have stops : ¬isWord mark = true := by
    rw [other]
    exact Bool.false_ne_true
  rw [List.cons_append, scanName, if_pos opens, List.takeWhile_append_of_pos words,
    List.dropWhile_append_of_pos words, List.takeWhile_cons_of_neg stops,
    List.dropWhile_cons_of_neg stops, List.append_nil]

theorem expandOnce_empty (text : List Char) : expandOnce {} text = text := by
  induction text using expandOnce.induct with
  | case1 => rw [expandOnce]
  | case2 c rest opens shorter inductionHypothesis =>
    rw [expandOnce, if_pos opens, inductionHypothesis]
    show c :: rest.takeWhile isDottedWord ++ rest.dropWhile isDottedWord = c :: rest
    rw [List.cons_append, List.takeWhile_append_dropWhile]
  | case3 c rest closed inductionHypothesis =>
    rw [expandOnce, if_neg closed, inductionHypothesis]

/-- Without aliases a text is only trimmed. -/
theorem expand_empty (text : List Char) : expand {} text = trim text := by
  have passes (count : Nat) (text : List Char) : expandTimes {} count text = text := by
    induction count with
    | zero => rfl
    | succ count inductionHypothesis =>
      rw [expandTimes, expandOnce_empty, inductionHypothesis]
  exact passes expansionPasses (trim text)

end Declaration

/-! ### Types and roles -/

namespace WrittenType

variable (type : WrittenType)

theorem balanced_chars : Balanced type.chars := balanced_of_start type.closed type.matched

theorem undivided_chars : Undivided ',' type.chars :=
  undivided_of_start type.undivided

theorem uncommented_chars : Uncommented type.chars :=
  uncommented_of_start fun _ member => nomatch type.uncommented _ member rfl

end WrittenType

namespace Role

theorem ofMarker_marker (role : Role) : ofMarker role.marker = some role := by
  cases role <;> rfl

/-- The characters of a marker, none of which divides a text or ends a type. -/
theorem isBare_marker (role : Role) : ∀ c ∈ role.marker, isBare c = true ∧ c ∉ [',', '=', '('] := by
  have all : role.marker.all (fun c => isBare c && !([',', '=', '('].contains c)) = true := by
    cases role <;> decide
  simpa using all

theorem isValue_marker (role : Role) : IsValue role.marker :=
  isValue_of_bare (by cases role <;> decide) fun c member => (role.isBare_marker c member).1

theorem notMem_marker (role : Role) {mark : Char} (listed : mark ∈ [',', '=', '(']) :
    mark ∉ role.marker := fun member => (role.isBare_marker mark member).2 listed

theorem readMarker_marker (role : Role) (constants : Constants)
    (found : Option Role × FieldNotes) :
    readMarker constants found role.marker = (some role, found.2) := by
  rw [readMarker, fieldCall, splitApplication, splitCall_eq_none (role.notMem_marker (by decide))]
  dsimp only
  rw [role.ofMarker_marker]

end Role

/-! ### Fields -/

namespace WrittenField

variable (field : WrittenField)

theorem balanced_separator : Balanced [',', ' '] :=
  balanced_of_plain (List.all_eq_true.1 (by decide))

theorem balanced_arguments : Balanced field.arguments :=
  field.type.balanced_chars.append (balanced_separator.append field.role.isValue_marker.balanced)

theorem uncommented_arguments : Uncommented field.arguments :=
  .append field.type.balanced_chars field.type.uncommented_chars
    (.append balanced_separator (uncommented_of_notMem (by decide))
      field.role.isValue_marker.uncommented)

theorem oneLine_arguments : '\n' ∉ field.arguments := by
  intro member
  simp only [arguments, List.mem_append, List.mem_cons] at member
  obtain inType | same | same | inMarker := member
  · exact field.type.oneLine inType
  · cases same
  · cases same
  · exact field.role.isValue_marker.oneLine inMarker

theorem isValue_wrapperWord : IsValue wrapperWord :=
  isValue_of_bare (by decide) (List.all_eq_true.1 (by decide))

theorem isValue_wrapped : IsValue field.wrapped :=
  isValue_enclosed isValue_wrapperWord rfl rfl field.oneLine_arguments field.balanced_arguments
    field.uncommented_arguments

theorem undivided_wrapped : Undivided '=' field.wrapped :=
  .append isValue_wrapperWord.balanced (undivided_of_notMem (by decide))
    (undivided_bracketed field.balanced_arguments rfl)

/-- The wrapper of a type is taken off and its marker read. -/
theorem unwrap_wrapped (constants : Constants) :
    unwrap constants field.wrapped = (field.type.chars, some field.role, {}) := by
  have call : splitSubscript field.wrapped = some (trim wrapperWord, field.arguments) :=
    splitSubscript_append (by decide) field.balanced_arguments field.isValue_wrapped.trim_eq
  have isWrapper : trim wrapperWord = "Annotated".toList := rfl
  have parts : splitTopLevel ',' field.arguments = [field.type.chars, field.role.marker] := by
    have undivided : Undivided ',' field.role.marker :=
      undivided_of_notMem (field.role.notMem_marker (by decide))
    rw [arguments, splitTopLevel_append field.type.balanced_chars field.type.undivided_chars rfl,
      splitTopLevel_cons_of_blank rfl rfl (by decide), splitTopLevel_of_undivided undivided,
      field.type.trimmed, field.role.isValue_marker.trim_eq]
  rw [unwrap, call]
  dsimp only
  rw [if_pos isWrapper, parts, List.drop_one, List.tail_cons, List.foldl_cons, List.foldl_nil,
    field.role.readMarker_marker]
  rfl

/-- The type and the value of a declaration. -/
theorem cutAssign_declaration :
    cutAssign field.declaration =
      field.start.map fun literal => (field.wrapped ++ [' '], ' ' :: literal.chars) := by
  rw [declaration]
  cases field.start with
  | none =>
    rw [Option.elim_none, List.append_nil]
    exact cutAssign_eq_none field.undivided_wrapped
  | some literal =>
    have blank : Balanced [' '] := balanced_of_plain (List.all_eq_true.1 (by decide))
    have undivided : Undivided '=' (field.wrapped ++ [' ']) :=
      .append field.isValue_wrapped.balanced field.undivided_wrapped
        (undivided_of_notMem (by decide))
    rw [Option.elim_some, List.append_cons]
    refine cutAssign_append (field.isValue_wrapped.balanced.append blank) undivided ?_
      fun same => absurd (Option.some.inj same) (by decide)
    rw [List.getLast?_concat]
    rfl

/-- A declaration is read as the member that it declares. -/
theorem ofStored_declaration :
    Member.ofStored {} ⟨field.name.toList, field.declaration⟩ =
      some ⟨field.field, field.role, field.default?⟩ := by
  have trimmed := field.isValue_wrapped.trim_eq
  have nonempty : ¬field.wrapped.isEmpty = true := fun none =>
    field.isValue_wrapped.ne_nil (List.isEmpty_iff.1 none)
  have declared (notes : FieldNotes) (untitled : notes.title = none)
      (undescribed : notes.description = none) :
      declaredField {} field.name.toList field.type.chars notes = field.field := by
    rw [declaredField, expand_empty, field.type.trimmed, untitled, undescribed,
      String.ofList_toList]
    rfl
  rw [Member.ofStored, field.cutAssign_declaration, default?, declaration]
  cases field.start with
  | none =>
    rw [Option.elim_none, List.append_nil, trimmed]
    dsimp only [Option.map_none]
    rw [if_neg nonempty, field.unwrap_wrapped]
    dsimp only [Option.elim_none]
    rw [declared _ rfl rfl]
    rfl
  | some literal =>
    have value : trim (' ' :: literal.chars) = literal.chars :=
      (trim_cons_of_blank rfl _).trans literal.isValue.trim_eq
    dsimp only [Option.map_some]
    rw [trim_concat_of_blank rfl, trimmed, if_neg nonempty, field.unwrap_wrapped, value]
    dsimp only [Option.elim_some]
    rw [FieldNotes.readValue, literal.fieldCall_chars]
    dsimp only
    rw [literal.readDefault_chars, declared _ rfl rfl]
    rfl

theorem isValue_declaration : IsValue field.declaration := by
  rw [declaration]
  cases field.start with
  | none =>
    rw [Option.elim_none, List.append_nil]
    exact field.isValue_wrapped
  | some literal =>
    have between : ∀ c ∈ [' ', '=', ' '], isSpacing c = true := List.all_eq_true.1 (by decide)
    exact field.isValue_wrapped.append between literal.isValue

theorem isValue_name : IsValue field.name.toList :=
  isValue_of_isIdentifier field.named

theorem scanName_chars :
    scanName field.chars = some (field.name.toList, ':' :: ' ' :: field.declaration) :=
  scanName_append field.named rfl _

/-- The line of a field names the field and its declaration. -/
theorem ofLine_chars :
    Stored.ofLine field.chars = some ⟨field.name.toList, field.declaration⟩ := by
  have started : trimStart (' ' :: field.declaration) = field.declaration :=
    field.isValue_declaration.trimStart_cons rfl
  have nonempty : ¬field.declaration.isEmpty = true := fun none =>
    field.isValue_declaration.ne_nil (List.isEmpty_iff.1 none)
  rw [Stored.ofLine, field.scanName_chars]
  dsimp only
  rw [trimStart, List.dropWhile_cons_of_neg (by decide)]
  simp only [started, if_neg nonempty]

theorem statement_chars : Statement field.chars := by
  have between : ∀ c ∈ [':', ' '], isSpacing c = true := List.all_eq_true.1 (by decide)
  refine ⟨field.isValue_name.append between field.isValue_declaration, fun c isFirst => ?_⟩
  obtain ⟨first, rest, spelled, opens, -⟩ := exists_of_isIdentifier field.named
  rw [chars, spelled] at isFirst
  cases isFirst
  exact opens

end WrittenField

end Workflow
