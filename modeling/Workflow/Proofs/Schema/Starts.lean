/-
This file proves that the values which fields of declared models start with are
values there can be.

A start is read from an expression: numbers in it are rounded or fall out of range,
and a constant stands for a start that was read before. The starts of a model are those
of the members that its lineage declares.
-/

import Workflow.Proofs.Json.Valid
import Workflow.Proofs.Registry

namespace Workflow

open Number Text

/-- A default that starts with a value there can be. -/
def Default.Valid (start : Default) : Prop := start.start.Valid

/-- Defaults by name all of which are valid. -/
def ValidStarts (starts : OrderedMap String Default) : Prop :=
  ∀ entry ∈ starts.entries, entry.2.Valid

namespace Declaration

/-! ### Expressions -/

theorem valid_numeralStart (numeral : Numeral) : (numeralStart numeral).Valid := by
  simp only [numeralStart]
  generalize (if numeral.negative = true then -(digitsValue numeral.whole : Int)
    else digitsValue numeral.whole) = value
  split
  · next fits =>
    obtain ⟨-, -, least, most⟩ := fits
    refine Json.valid_int_iff.2 ⟨least, most.trans ?_⟩
    exact_mod_cast (by decide : twoTo 63 < twoTo 64)
  · split
    · next rounded isRounded => exact Json.valid_real_iff.2 (Numeral.holds_round isRounded)
    · exact Json.valid_null

theorem valid_wordStart {word : String} {value : Json}
    (isWord : wordStart word = some (some value)) : value.Valid := by
  rw [wordStart.eq_def] at isWord
  split at isWord <;> cases isWord
  · exact Json.valid_null
  · exact Json.valid_null
  · exact Json.valid_bool true
  · exact Json.valid_bool true
  · exact Json.valid_bool false
  · exact Json.valid_bool false
  · exact Json.valid_array_iff.2 (List.forall_mem_nil _)
  · exact Json.valid_array_iff.2 (List.forall_mem_nil _)
  · exact Object.valid_empty
  · exact Object.valid_empty

theorem valid_message (kind : String) {value : Json} (valid : value.Valid) :
    (Default.message kind value).Valid := by
  refine Json.valid_object_iff.2 ⟨?_, ?_⟩
  · exact List.pairwise_pair.2 (by decide : "type" < "value")
  · exact List.forall_mem_cons.2 ⟨Json.valid_string kind, List.forall_mem_singleton.2 valid⟩

/-- Every default that is read is valid if those of the constants are. -/
theorem valid_readDefault {constants : Constants} (valid : ValidStarts constants)
    {expression : List Char} {start : Default}
    (isRead : readDefault constants expression = some start) : start.Valid := by
  fun_induction readDefault constants expression generalizing start with
  | case1 expression text word =>
    obtain ⟨value, rfl, rfl⟩ := Option.map_eq_some_iff.1 isRead
    exact valid_wordStart ‹_›
  | case2 expression text noWord content =>
    cases isRead
    exact Json.valid_string _
  | case3 expression text noWord noText numeral =>
    cases isRead
    exact valid_numeralStart numeral
  | case4 expression text noWord noText noNumeral kind value isMessage shorter payload =>
    rename_i inductionHypothesis
    cases isRead
    refine valid_message _ ?_
    show ((readDefault constants value).elim Json.null Default.start).Valid
    cases found : readDefault constants value with
    | none => exact Json.valid_null
    | some start => exact inductionHypothesis found
  | case5 expression text noWord noText noNumeral constant =>
    cases isRead
    exact valid _ (OrderedMap.mem_entries_of_get? ‹_›)
  | case6 =>
    cases isRead
    exact Json.valid_string _

/-! ### Members -/

/-- Notes that give a valid default or none. -/
def FieldNotes.Valid (notes : FieldNotes) : Prop := ∀ start ∈ notes.start, start.Valid

section Members

variable {constants : Constants} {notes : FieldNotes}

theorem FieldNotes.valid_empty : FieldNotes.Valid {} := nofun

theorem valid_factory (name : String) : (Default.factory name).Valid := Json.valid_null

theorem FieldNotes.Valid.readArgument (starts : ValidStarts constants) (valid : notes.Valid)
    (argument : List Char × Nat) : (notes.readArgument constants argument).Valid := by
  rw [FieldNotes.readArgument]
  split
  · exact valid
  · split
    · split
      · exact fun start isRead => valid_readDefault starts isRead
      · exact valid
    · split
      · exact fun start isRead => valid_readDefault starts isRead
      · rintro _ ⟨⟩
        exact valid_factory _
      · exact valid
      · exact valid
      · exact valid

theorem FieldNotes.Valid.readCall (starts : ValidStarts constants) (valid : notes.Valid)
    (arguments : List Char) : (notes.readCall constants arguments).Valid :=
  List.foldlRecOn _ (FieldNotes.readArgument constants) valid
    fun _ valid argument _ => valid.readArgument starts argument

theorem FieldNotes.Valid.readValue (starts : ValidStarts constants) (valid : notes.Valid)
    (expression : List Char) : (notes.readValue constants expression).Valid := by
  rw [FieldNotes.readValue]
  split
  · exact valid.readCall starts _
  · exact fun start isRead => valid_readDefault starts isRead

theorem FieldNotes.Valid.elim_readValue (starts : ValidStarts constants) (valid : notes.Valid)
    (expression? : Option (List Char)) :
    (expression?.elim notes (notes.readValue constants)).Valid := by
  cases expression? with
  | none => exact valid
  | some expression => exact valid.readValue starts expression

theorem valid_readMarker (starts : ValidStarts constants) {found : Option Role × FieldNotes}
    (valid : found.2.Valid) (marker : List Char) : (readMarker constants found marker).2.Valid := by
  rw [readMarker]
  split
  · exact valid.readCall starts _
  · split
    · exact valid
    · exact valid

theorem valid_unwrap (starts : ValidStarts constants) (type : List Char) :
    (unwrap constants type).2.2.Valid := by
  rw [unwrap]
  split
  · next head arguments _ =>
    split
    · exact List.foldlRecOn (motive := fun found : Option Role × FieldNotes => found.2.Valid) _
        (readMarker constants) FieldNotes.valid_empty
        fun _ valid marker _ => valid_readMarker starts valid marker
    · exact FieldNotes.valid_empty
  · exact FieldNotes.valid_empty

/-- What a declared member starts with is valid if the constants are. -/
theorem Member.IsRead.valid {environment : Environment} (starts : ValidStarts environment.constants)
    {member : Member} (isRead : member.IsRead environment) :
    ∀ start ∈ member.start, start.Valid := by
  cases isRead with
  | @stored line stored member isLine isMember =>
    simp only [Member.ofStored, Option.ite_none_left_eq_some, Option.some.injEq] at isMember
    obtain ⟨-, rfl⟩ := isMember
    exact (valid_unwrap starts _).elim_readValue starts _
  | accessor isLine =>
    intro start isStart
    cases isStart

end Members

/-! ### Constants and models -/

theorem Bindings.validStarts_add {bindings : Bindings} (valid : ValidStarts bindings.constants)
    (binding : Binding) : ValidStarts (bindings.add binding).constants := by
  rw [Bindings.add]
  split
  · split
    · next start isRead => exact OrderedMap.forall_mem_insert valid (valid_readDefault valid isRead)
    · exact valid
  · split
    · exact valid
    · exact valid

theorem Bindings.validStarts_ofLines (lines : List (List Char)) :
    ValidStarts (Bindings.ofLines lines).constants := by
  refine List.foldlRecOn (motive := fun bindings : Bindings => ValidStarts bindings.constants) _ _
    (fun _ member => absurd member List.not_mem_nil) fun bindings valid line _ => ?_
  cases Binding.ofLine (trim line) with
  | none => exact valid
  | some binding => exact validStarts_add valid binding

/-- Merging keeps the starts of the last members. -/
theorem validStarts_mergeMembers {blocks : List Block}
    (valid : ∀ block ∈ blocks, ∀ member ∈ block.members.values, ∀ start ∈ member.start,
      start.Valid) : ValidStarts (mergeMembers blocks).defaults := by
  refine List.foldlRecOn (motive := fun merged : Merged => ValidStarts merged.defaults) _ Merged.add
    (fun _ member => absurd member List.not_mem_nil) fun merged starts member listed => ?_
  obtain ⟨block, isBlock, isMember⟩ := List.mem_flatMap.1 listed
  rw [Merged.add]
  dsimp only
  split
  · next start isStart =>
    exact OrderedMap.forall_mem_insert starts (valid block isBlock member isMember start isStart)
  · exact fun entry kept => starts entry (List.mem_of_mem_filter kept)

end Declaration

open Declaration

/-- The fields of a declared model start with values there can be. -/
theorem Model.IsDeclared.validStarts {model : Model} (declared : model.IsDeclared) :
    ValidStarts model.defaults := by
  obtain ⟨source, isModel⟩ := declared
  obtain ⟨⟨name, other⟩, isEntry, rfl⟩ := List.mem_map.1 isModel
  obtain ⟨⟨blockName, block⟩, -, isFound⟩ := List.mem_filterMap.1 isEntry
  obtain ⟨found, isModelOf, same⟩ := Option.map_eq_some_iff.1 isFound
  cases same
  simp only [modelOf?, Option.ite_none_right_eq_some, Option.some.injEq] at isModelOf
  obtain ⟨-, rfl⟩ := isModelOf
  refine validStarts_mergeMembers fun ancestor listed member isMember => ?_
  obtain ⟨ancestorName, -, isBlock⟩ := List.mem_filterMap.1 listed
  have isRead := ((isRead_gatherBlocks _ _).2 _ (OrderedMap.mem_entries_of_get? isBlock)).2
  exact (isRead member isMember).valid (Bindings.validStarts_ofLines _)

end Workflow
