/-
This file proves that types can be read off their normal spelling.

Types are spelled properly if their names have no blanks, brackets, quotes and
separators, and if a dictionary keeps the spelling of such a type. The spelling of a
wrapper is its head with the arguments in brackets; the arguments are balanced, and
commas divide them between the variants of a union only. So head and arguments come
back, and no two types are spelled alike.
-/

import Workflow.Proofs.Text.Split
import Workflow.Schema.Compatible

namespace Workflow

open Text

/-! ### Proper spellings -/

/-- A character that names of types may have. -/
def Text.isNameChar (c : Char) : Bool := isPlain c && !isBlank c && c != ',' && c != '|'

theorem Text.isNameChar_iff {c : Char} : isNameChar c = true ↔
    isPlain c = true ∧ isBlank c = false ∧ c ≠ ',' ∧ c ≠ '|' := by
  simp [isNameChar, and_assoc]

/-- Lists are equal if a function that tells their items apart takes them to the same list. -/
theorem eq_of_map_eq {Item Image : Type} {image : Item → Image} {first second : List Item}
    (apart : ∀ item ∈ first, ∀ other ∈ second, image item = image other → item = other)
    (same : first.map image = second.map image) : first = second := by
  have length : first.length = second.length := by
    simpa only [List.length_map] using congrArg List.length same
  refine List.ext_getElem length fun place inRange inRange' => ?_
  refine apart _ (List.getElem_mem inRange) _ (List.getElem_mem inRange') ?_
  have spot := congrArg (·[place]?) same
  simpa only [List.getElem?_map, List.getElem?_eq_getElem inRange,
    List.getElem?_eq_getElem inRange', Option.map_some, Option.some.injEq] using spot

namespace TypeExpr

/-- A name, perhaps of parts with dots between them; it does not end in a dot. -/
structure IsName (name : List Char) : Prop where
  clean : ∀ c ∈ name, isNameChar c = true
  named : name ≠ []
  ended : name.getLast? ≠ some '.'

/-- A type whose names are proper, whose unions have variants and whose dictionaries keep the
spelling of a type. -/
inductive Spelled : TypeExpr → Prop
  | basic {name : String} (isName : IsName name.toList) : Spelled (basic name)
  | optional {inner : TypeExpr} (spelled : Spelled inner) : Spelled (optional inner)
  | union {variants : List TypeExpr} (some : variants ≠ [])
      (spelled : ∀ variant ∈ variants, Spelled variant) : Spelled (union variants)
  | list {item : TypeExpr} (spelled : Spelled item) : Spelled (list item)
  | dict {value : TypeExpr} (spelled : Spelled value) : Spelled (dict value.display)
  | message {payload : TypeExpr} (spelled : Spelled payload) : Spelled (message payload)

/-- A trimmed text that commas outside it do not divide. -/
structure IsArgument (text : List Char) : Prop where
  balanced : Balanced text
  undivided : Undivided ',' text
  trim_eq : trim text = text

/-- What spellings of types have in common. -/
structure Spelling (text : List Char) : Prop where
  balanced : Balanced text
  undivided : Undivided ',' text
  pipeless : '|' ∉ text
  first : ∀ c ∈ text.head?, isBlank c = false
  last : ∀ c ∈ text.getLast?, isBlank c = false

theorem Spelling.trim_eq {text : List Char} (spelling : Spelling text) : trim text = text :=
  trim_eq_self spelling.first spelling.last

theorem Spelling.isArgument {text : List Char} (spelling : Spelling text) : IsArgument text :=
  ⟨spelling.balanced, spelling.undivided, spelling.trim_eq⟩

theorem spelling_of_clean {text : List Char} (clean : ∀ c ∈ text, isNameChar c = true) :
    Spelling text where
  balanced := balanced_of_plain fun c member => (isNameChar_iff.1 (clean c member)).1
  undivided := undivided_of_notMem fun member => absurd (clean _ member) (by decide)
  pipeless member := absurd (clean _ member) (by decide)
  first c isFirst := (isNameChar_iff.1 (clean c (List.mem_of_mem_head? isFirst))).2.1
  last c isLast := (isNameChar_iff.1 (clean c (List.mem_of_mem_getLast? isLast))).2.1

/-- A head with balanced arguments in brackets. -/
theorem spelling_subscript {head arguments : List Char} (named : head ≠ [])
    (clean : ∀ c ∈ head, isNameChar c = true) (balanced : Balanced arguments)
    (pipeless : '|' ∉ arguments) : Spelling (head ++ bracketed arguments) := by
  have isHead := spelling_of_clean clean
  refine ⟨isHead.balanced.append balanced.bracketed,
    isHead.undivided.append isHead.balanced (undivided_bracketed balanced (by decide)), ?_, ?_, ?_⟩
  · intro member
    rcases List.mem_append.1 member with inHead | inside
    · exact isHead.pipeless inHead
    · simp [bracketed, pipeless] at inside
  · rw [List.head?_append_of_ne_nil _ named]
    exact isHead.first
  · intro c isLast
    rw [bracketed, ← List.cons_append, ← List.append_assoc, List.getLast?_concat] at isLast
    obtain rfl := Option.some.inj isLast
    decide

/-! ### Heads and arguments -/

/-- The head under which a wrapper is spelled. -/
def Wrapper.head : Wrapper → List Char
  | .optional => "Optional".toList
  | .union => "Union".toList
  | .list => "List".toList
  | .dict => "Dict".toList
  | .message => "Message".toList
  | .annotated => "Annotated".toList

/-- Wrappers are told apart by their heads. -/
theorem Wrapper.head_inj {first second : Wrapper} : first.head = second.head ↔ first = second := by
  cases first <;> cases second <;> decide

theorem Wrapper.clean_head (wrapper : Wrapper) :
    wrapper.head ≠ [] ∧ ∀ c ∈ wrapper.head, isNameChar c = true := by
  cases wrapper <;> exact ⟨by decide, List.all_eq_true.1 rfl⟩

theorem Wrapper.ofHead_head (wrapper : Wrapper) : ofHead wrapper.head = some wrapper := by
  cases wrapper <;> rfl

theorem trim_wrapped (wrapper : Wrapper) (arguments : List Char) :
    trim (wrapper.head ++ bracketed arguments) = wrapper.head ++ bracketed arguments := by
  obtain ⟨named, clean⟩ := wrapper.clean_head
  refine trim_eq_self ?_ fun c isLast => ?_
  · rw [List.head?_append_of_ne_nil _ named]
    exact (spelling_of_clean clean).first
  · rw [bracketed, ← List.cons_append, ← List.append_assoc, List.getLast?_concat] at isLast
    cases isLast
    rfl

/-- A spelled wrapper is taken apart into its head and its arguments. -/
theorem splitSubscript_wrapped (wrapper : Wrapper) {arguments : List Char}
    (balanced : Balanced arguments) :
    splitSubscript (wrapper.head ++ bracketed arguments) = some (wrapper.head, arguments) := by
  have bracketless : '[' ∉ wrapper.head := fun member =>
    absurd (wrapper.clean_head.2 _ member) (by decide)
  rw [splitSubscript_append bracketless balanced (trim_wrapped wrapper arguments),
    (spelling_of_clean wrapper.clean_head.2).trim_eq]

/-- The wrapper of a type and what stands in its brackets. -/
def subscript? : TypeExpr → Option (Wrapper × List Char)
  | basic _ => none
  | optional inner => some (.optional, inner.chars)
  | union variants => some (.union, charsOfAll variants)
  | list item => some (.list, item.chars)
  | dict value => some (.dict, "str, ".toList ++ value.toList)
  | message payload => some (.message, payload.chars)

theorem toList_display (type : TypeExpr) : type.display.toList = type.chars := String.toList_ofList

theorem chars_eq_of_subscript? {type : TypeExpr} {wrapper : Wrapper} {arguments : List Char}
    (isSubscript : type.subscript? = some (wrapper, arguments)) :
    type.chars = wrapper.head ++ bracketed arguments := by
  cases type with
  | basic name => cases isSubscript
  | _ =>
    obtain ⟨rfl, rfl⟩ := Prod.mk.inj (Option.some.inj isSubscript)
    rfl

/-- The spellings of variants, one after the other. -/
theorem charsOfAll_cons {first : TypeExpr} {rest : List TypeExpr} (some : rest ≠ []) :
    charsOfAll (first :: rest) = first.chars ++ ',' :: ' ' :: charsOfAll rest := by
  cases rest with
  | nil => exact absurd rfl some
  | cons second rest => exact List.append_assoc first.chars ", ".toList _

theorem balanced_charsOfAll {variants : List TypeExpr}
    (balanced : ∀ variant ∈ variants, Balanced variant.chars) : Balanced (charsOfAll variants) := by
  induction variants with
  | nil => exact balanced_nil
  | cons first rest inductionHypothesis =>
    obtain ⟨isFirst, others⟩ := List.forall_mem_cons.1 balanced
    by_cases none : rest = []
    · rw [none]
      exact isFirst
    · have comma : Balanced [',', ' '] := balanced_of_plain (List.all_eq_true.1 rfl)
      rw [charsOfAll_cons none]
      exact isFirst.append (comma.append (inductionHypothesis others))

theorem pipeless_charsOfAll {variants : List TypeExpr}
    (pipeless : ∀ variant ∈ variants, '|' ∉ variant.chars) : '|' ∉ charsOfAll variants := by
  induction variants with
  | nil => exact List.not_mem_nil
  | cons first rest inductionHypothesis =>
    obtain ⟨isFirst, others⟩ := List.forall_mem_cons.1 pipeless
    by_cases none : rest = []
    · rw [none]
      exact isFirst
    · rw [charsOfAll_cons none]
      simp [isFirst, inductionHypothesis others]

/-- A proper type is spelled properly if its arguments are balanced. -/
theorem Spelled.spelling_of_arguments {type : TypeExpr} (spelled : type.Spelled)
    (proper : ∀ wrapper arguments, type.subscript? = some (wrapper, arguments) →
      Balanced arguments ∧ '|' ∉ arguments) : Spelling type.chars := by
  cases isSubscript : type.subscript? with
  | none =>
    cases spelled with
    | basic isName => exact spelling_of_clean isName.clean
    | _ => cases isSubscript
  | some subscript =>
    obtain ⟨named, clean⟩ := subscript.1.clean_head
    obtain ⟨balanced, pipeless⟩ := proper _ _ isSubscript
    rw [chars_eq_of_subscript? isSubscript]
    exact spelling_subscript named clean balanced pipeless

/-- Arguments of proper types are balanced. -/
theorem Spelled.balanced_arguments {type : TypeExpr} (spelled : type.Spelled) :
    ∀ wrapper arguments, type.subscript? = some (wrapper, arguments) →
      Balanced arguments ∧ '|' ∉ arguments := by
  intro wrapper arguments isSubscript
  induction spelled generalizing wrapper arguments with
  | basic isName => cases isSubscript
  | optional spelled inductionHypothesis
  | list spelled inductionHypothesis
  | message spelled inductionHypothesis =>
    obtain ⟨-, rfl⟩ := Prod.mk.inj (Option.some.inj isSubscript)
    have spelling := spelled.spelling_of_arguments inductionHypothesis
    exact ⟨spelling.balanced, spelling.pipeless⟩
  | union _ spelled inductionHypothesis =>
    obtain ⟨-, rfl⟩ := Prod.mk.inj (Option.some.inj isSubscript)
    have spelling (variant : TypeExpr) (member : variant ∈ _) :=
      (spelled variant member).spelling_of_arguments (inductionHypothesis variant member)
    exact ⟨balanced_charsOfAll fun variant member => (spelling variant member).balanced,
      pipeless_charsOfAll fun variant member => (spelling variant member).pipeless⟩
  | dict spelled inductionHypothesis =>
    obtain ⟨-, rfl⟩ := Prod.mk.inj (Option.some.inj isSubscript)
    have key : Balanced "str, ".toList := balanced_of_plain (List.all_eq_true.1 rfl)
    have spelling := spelled.spelling_of_arguments inductionHypothesis
    rw [toList_display]
    exact ⟨key.append spelling.balanced, by simp [spelling.pipeless]⟩

/-- Proper types are spelled properly. -/
theorem Spelled.spelling {type : TypeExpr} (spelled : type.Spelled) : Spelling type.chars :=
  spelled.spelling_of_arguments spelled.balanced_arguments

/-! ### Types read off -/

/-- The arguments of a union are the spellings of its variants. -/
theorem splitTopLevel_charsOfAll {variants : List TypeExpr} (some : variants ≠ [])
    (arguments : ∀ variant ∈ variants, IsArgument variant.chars) :
    splitTopLevel ',' (charsOfAll variants) = variants.map chars := by
  induction variants with
  | nil => exact absurd rfl some
  | cons first rest inductionHypothesis =>
    obtain ⟨isFirst, others⟩ := List.forall_mem_cons.1 arguments
    by_cases none : rest = []
    · rw [none]
      show splitTopLevel ',' first.chars = [first.chars]
      rw [splitTopLevel_of_undivided isFirst.undivided, isFirst.trim_eq]
    · rw [charsOfAll_cons none,
        splitTopLevel_append isFirst.balanced isFirst.undivided (by decide),
        splitTopLevel_cons_of_blank (by decide) (by decide) (by decide), isFirst.trim_eq,
        inductionHypothesis none others]
      rfl

theorem Spelled.splitSubscript_eq {type : TypeExpr} (spelled : type.Spelled) :
    splitSubscript type.chars = type.subscript?.map fun (wrapper, arguments) =>
      (wrapper.head, arguments) := by
  cases isSubscript : type.subscript? with
  | none =>
    cases spelled with
    | basic isName =>
      exact splitSubscript_eq_none fun member => absurd (isName.clean _ member) (by decide)
    | _ => cases isSubscript
  | some subscript =>
    obtain ⟨wrapper, arguments⟩ := subscript
    rw [chars_eq_of_subscript? isSubscript,
      splitSubscript_wrapped wrapper (spelled.balanced_arguments _ _ isSubscript).1]
    rfl

theorem Spelled.subscript?_congr {first second : TypeExpr} (spelled : first.Spelled)
    (spelled' : second.Spelled) (same : first.chars = second.chars) :
    first.subscript? = second.subscript? := by
  have spelling := spelled.splitSubscript_eq
  rw [same, spelled'.splitSubscript_eq] at spelling
  refine (Option.map_injective ?_ spelling).symm
  rintro ⟨wrapper, arguments⟩ ⟨other, others⟩ same
  obtain ⟨heads, rfl⟩ := Prod.mk.inj same
  rw [Wrapper.head_inj.1 heads]

/-- No two proper types are spelled alike. -/
theorem Spelled.eq_of_chars {first second : TypeExpr} (spelled : first.Spelled)
    (spelled' : second.Spelled) (same : first.chars = second.chars) : first = second := by
  induction spelled generalizing second with
  | basic isName =>
    have subscripts := (Spelled.basic isName).subscript?_congr spelled' same
    cases spelled' with
    | basic isName' => exact congrArg TypeExpr.basic (String.toList_inj.1 same)
    | _ => cases subscripts
  | optional inner inductionHypothesis =>
    have subscripts := (Spelled.optional inner).subscript?_congr spelled' same
    cases spelled' with
    | optional inner' =>
      exact congrArg TypeExpr.optional
        (inductionHypothesis inner' (congrArg Prod.snd (Option.some.inj subscripts)))
    | _ => cases subscripts
  | union some variants inductionHypothesis =>
    have subscripts := (Spelled.union some variants).subscript?_congr spelled' same
    cases spelled' with
    | union some' variants' =>
      have arguments := congrArg Prod.snd (Option.some.inj subscripts)
      have spellings := congrArg (splitTopLevel ',') arguments
      rw [splitTopLevel_charsOfAll some fun variant member =>
          (variants variant member).spelling.isArgument,
        splitTopLevel_charsOfAll some' fun variant member =>
          (variants' variant member).spelling.isArgument] at spellings
      refine congrArg TypeExpr.union (eq_of_map_eq ?_ spellings)
      intro variant member other isOther
      exact inductionHypothesis variant member (variants' other isOther)
    | _ => cases subscripts
  | list item inductionHypothesis =>
    have subscripts := (Spelled.list item).subscript?_congr spelled' same
    cases spelled' with
    | list item' =>
      exact congrArg TypeExpr.list
        (inductionHypothesis item' (congrArg Prod.snd (Option.some.inj subscripts)))
    | _ => cases subscripts
  | dict value inductionHypothesis =>
    have subscripts := (Spelled.dict value).subscript?_congr spelled' same
    cases spelled' with
    | dict value' =>
      have arguments := congrArg Prod.snd (Option.some.inj subscripts)
      exact congrArg TypeExpr.dict (String.toList_inj.1 (List.append_cancel_left arguments))
    | _ => cases subscripts
  | message payload inductionHypothesis =>
    have subscripts := (Spelled.message payload).subscript?_congr spelled' same
    cases spelled' with
    | message payload' =>
      exact congrArg TypeExpr.message
        (inductionHypothesis payload' (congrArg Prod.snd (Option.some.inj subscripts)))
    | _ => cases subscripts

end TypeExpr

end Workflow
