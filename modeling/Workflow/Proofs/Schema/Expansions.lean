/-
This file compares what the aliases of a source stand for with what the reading of the
source makes of them.

What an alias stands for is its text with every name outside string literals that is an
alias itself replaced by what that alias stands for. If aliases refer only to those
before them, going through them in order finds it. The reading of sources replaces
names a few times over and does not look at literals. A few times are enough, since
what the aliases before are kept with holds no names of aliases any more, but a name in
a literal is replaced as well. So the two agree on a text exactly if no literal that
gets into it holds the name of an alias.

Quotes tell the two apart where they differ: replacing names never loses a quote, and a
name that is replaced once more brings the quotes of its literal along.
-/

import Workflow.Proofs.Schema.Aliases

namespace Workflow.Declaration

open Text

/-! ### What aliases stand for -/

/-- What aliases stand for. -/
def expansions (declared : List TypeAlias) : Aliases := bindAll replaceOuterNames declared

/-- A text with every alias outside its literals replaced by what it stands for. -/
def expandOuter (declared : List TypeAlias) (text : List Char) : List Char :=
  replaceOuterNames (expansions declared) text

/-- How the text of an alias that is kept compares with what the alias stands for. -/
structure Compared (declared : List TypeAlias) (text full kept : List Char) : Prop where
  /-- What is kept has at least the quotes. -/
  quotes : quoteCount full ≤ quoteCount kept
  /-- Names of aliases are left in what is kept only with literals. -/
  literal : NamesAlias declared kept → quoteCount kept ≠ 0
  same : ¬NamesAlias declared full → kept = full
  left : NamesAlias declared full ↔ QuotesAlias declared text

namespace Paired

/-- A text without names of aliases stays as it is. -/
theorem iterate_eq_self {related : TypeAlias → List Char → List Char → Prop}
    {declared before : List TypeAlias} {full kept : Aliases} {text : List Char}
    (paired : Paired related before full kept) (within : before ⊆ declared)
    (none : ¬NamesAlias declared text) (passes : Nat) :
    (replaceNames kept)^[passes] text = text := by
  refine Function.iterate_fixed (replaceNames_eq_self fun name member => ?_) passes
  obtain ⟨bound, isBound, rfl⟩ | ⟨-, -, isKept⟩ := paired.alias_or_free name
  · exact absurd ⟨bound, within isBound, member⟩ none
  · exact isKept

section Compared

variable {declared before : List TypeAlias} {full kept : Aliases} {text : List Char}
  (paired : Paired (fun bound => Compared declared bound.text) before full kept)
include paired

theorem quoteCount_le :
    quoteCount (replaceOuterNames full text) ≤ quoteCount (replaceNames kept text) := by
  refine quoteCount_flatMap_le fun word quoted member => ?_
  have unquoted := quoteCount_of_name_mem member
  cases quoted with
  | true =>
    rw [if_pos rfl, unquoted]
    exact Nat.zero_le _
  | false =>
    rw [if_neg Bool.false_ne_true]
    obtain ⟨bound, isBound, rfl⟩ | ⟨-, isFull, -⟩ := paired.alias_or_free word
    · exact (paired.bound bound isBound).quotes
    · rw [isFull, unquoted]
      exact Nat.zero_le _

variable (within : before ⊆ declared)

section Within

include within

/-- Where no name of an alias is left, one round of replacing gets there. -/
theorem replaceNames_eq (none : ¬NamesAlias declared (replaceOuterNames full text)) :
    replaceNames kept text = replaceOuterNames full text := by
  refine respell_congr fun word quoted member => ?_
  have inResult {name : String}
      (isName : name ∈ names (if quoted then word else meaning full word).toList) :
      name ∈ names (replaceOuterNames full text) :=
    mem_names_respell.2 ⟨word, quoted, member, isName⟩
  obtain ⟨bound, isBound, rfl⟩ | ⟨-, isFull, isKept⟩ := paired.alias_or_free word
  · cases quoted with
    | true =>
      refine absurd ⟨bound, within isBound, inResult ?_⟩ none
      rw [if_pos rfl, names_of_name_mem member]
      exact List.mem_singleton_self _
    | false =>
      refine String.toList_injective ((paired.bound bound isBound).same ?_)
      rintro ⟨other, isOther, isName⟩
      exact none ⟨other, isOther, inResult isName⟩
  · rw [isKept, isFull, ite_self]

theorem expandRepeatedly_eq (none : ¬NamesAlias declared (replaceOuterNames full text)) :
    expandRepeatedly kept text = replaceOuterNames full text := by
  rw [expandRepeatedly_eq_iterate, paired.replaceNames_eq within none]
  exact paired.iterate_eq_self within none _

end Within

variable (known : ∀ bound ∈ declared, bound.name ∈ namesAt false text → bound ∈ before)
include known

/-- One round of replacing that ends without quotes leaves no name of an alias. -/
theorem not_namesAlias_replaceNames (unquoted : quoteCount (replaceNames kept text) = 0) :
    ¬NamesAlias declared (replaceNames kept text) := by
  rintro ⟨bound, listed, isName⟩
  obtain ⟨word, member, inMeaning⟩ := mem_names_replaceNames.1 isName
  have gained := quoteCount_add_le_replaceNames kept member
  have textUnquoted : quoteCount text = 0 := by omega
  obtain ⟨other, isOther, rfl⟩ | ⟨absent, -, isKept⟩ := paired.alias_or_free word
  · have quotes := (paired.bound other isOther).literal ⟨bound, listed, inMeaning⟩
    omega
  · rw [isKept, names_of_mem member, List.mem_singleton] at inMeaning
    subst inMeaning
    obtain ⟨quoted, isPiece⟩ := (mem_names_iff .start text).1 member
    obtain rfl := unquoted_of_quoteCount textUnquoted isPiece
    exact absent (List.mem_map_of_mem (known bound listed (mem_namesAt_iff.2 isPiece)))

/-- A name in a literal is left, and so is one in a literal of an alias that is referred to. -/
theorem namesAlias_of_quotesAlias (quotes : QuotesAlias declared text) :
    NamesAlias declared (replaceOuterNames full text) := by
  cases quotes with
  | @directly _ bound listed quoted =>
    have member := mem_namesAt_iff.1 quoted
    refine ⟨bound, listed, mem_names_respell.2 ⟨_, _, member, ?_⟩⟩
    rw [if_pos rfl, names_of_name_mem member]
    exact List.mem_singleton_self _
  | @through _ bound listed refers quotes =>
    obtain ⟨other, isOther, inMeaning⟩ :=
      (paired.bound bound (known bound listed refers)).left.2 quotes
    exact ⟨other, isOther, mem_names_respell.2 ⟨_, _, mem_namesAt_iff.1 refers, inMeaning⟩⟩

variable (within : before ⊆ declared)
include within

/-- The name of an alias is left only if it stands in a literal. -/
theorem quotesAlias_of_namesAlias (left : NamesAlias declared (replaceOuterNames full text)) :
    QuotesAlias declared text := by
  obtain ⟨bound, listed, isName⟩ := left
  obtain ⟨word, quoted, member, inSpelling⟩ := mem_names_respell.1 isName
  cases quoted with
  | true =>
    rw [if_pos rfl, names_of_name_mem member, List.mem_singleton] at inSpelling
    subst inSpelling
    exact .directly listed (mem_namesAt_iff.2 member)
  | false =>
    rw [if_neg Bool.false_ne_true] at inSpelling
    obtain ⟨other, isOther, rfl⟩ | ⟨absent, isFull, -⟩ := paired.alias_or_free word
    · have quotes := (paired.bound other isOther).left.1 ⟨bound, listed, inSpelling⟩
      exact .through (within isOther) (mem_namesAt_iff.2 member) quotes
    · rw [isFull, names_of_name_mem member, List.mem_singleton] at inSpelling
      subst inSpelling
      have isEarlier := known bound listed (mem_namesAt_iff.2 member)
      exact absurd (List.mem_map_of_mem isEarlier) absent

/-- A text with the aliases before it replaced compares as the aliases do. -/
theorem compared :
    Compared declared text (replaceOuterNames full text) (expandRepeatedly kept text) where
  quotes := by
    rw [expandRepeatedly_eq_iterate]
    exact paired.quoteCount_le.trans (quoteCount_le_iterate kept _ _)
  literal left unquoted := by
    rw [expandRepeatedly_eq_iterate] at left unquoted
    have fewer := quoteCount_le_iterate kept (expansionPasses - 1) (replaceNames kept text)
    have none := paired.not_namesAlias_replaceNames known (by omega)
    rw [paired.iterate_eq_self within none] at left
    exact none left
  same := paired.expandRepeatedly_eq within
  left := ⟨paired.quotesAlias_of_namesAlias within known, paired.namesAlias_of_quotesAlias known⟩

end Compared

/-- A round of replacing after which the name of an alias is left brings quotes along, once all
aliases are bound. -/
theorem quoteCount_lt {declared : List TypeAlias} {full kept : Aliases} {text : List Char}
    (paired : Paired (fun bound => Compared declared bound.text) declared full kept)
    (left : NamesAlias declared (replaceNames kept text)) :
    quoteCount text < quoteCount (replaceNames kept text) := by
  obtain ⟨bound, listed, isName⟩ := left
  obtain ⟨word, member, inMeaning⟩ := mem_names_replaceNames.1 isName
  have gained := quoteCount_add_le_replaceNames kept member
  obtain ⟨other, isOther, rfl⟩ | ⟨absent, -, isKept⟩ := paired.alias_or_free word
  · have quotes := (paired.bound other isOther).literal ⟨bound, listed, inMeaning⟩
    omega
  · rw [isKept, names_of_mem member, List.mem_singleton] at inMeaning
    exact absurd (inMeaning ▸ List.mem_map_of_mem listed) absent

end Paired

/-! ### Aliases in order -/

section Ordered

variable {declared : List TypeAlias} (ordered : Ordered (namesAt false) declared)
include ordered

/-- Aliases that refer to those before them compare with what they stand for. -/
theorem paired_expansions :
    Paired (fun bound => Compared declared bound.text) declared (expansions declared)
      (bindAll expandRepeatedly declared) := by
  refine paired_bindAll ordered.distinct fun before bound after split paired => ?_
  subst split
  exact paired.compared (List.subset_append_left _ _)
    fun other listed refers => ordered.mem_before listed refers

/-- A text is read with its aliases expanded in full exactly if no literal that gets into it names
an alias. -/
theorem expandRepeatedly_eq_iff (text : List Char) :
    expandRepeatedly (bindAll expandRepeatedly declared) text = expandOuter declared text ↔
      ¬QuotesAlias declared text := by
  have paired := paired_expansions ordered
  have compared : Compared declared text _ _ :=
    paired.compared (List.Subset.refl _) fun bound listed _ => listed
  constructor
  · intro same quotes
    have left := compared.left.2 quotes
    have fewer : quoteCount (replaceOuterNames (expansions declared) text) ≤ _ :=
      paired.quoteCount_le
    rw [← expandOuter, ← same, expandRepeatedly, expandTimes_eq_iterate, expansionPasses]
      at left fewer
    -- The last round leaves a name, so it brings quotes that what the text stands for has not got.
    rw [Function.iterate_succ_apply'] at left fewer
    have gained := paired.quoteCount_lt left
    rw [Function.iterate_succ_apply] at gained fewer
    have earlier := quoteCount_le_iterate (bindAll expandRepeatedly declared) 2
      (replaceNames (bindAll expandRepeatedly declared) text)
    omega
  · intro unquoted
    exact compared.same fun left => unquoted (compared.left.1 left)

/-- What a text without such literals is read as names no alias. -/
theorem not_namesAlias_expandRepeatedly {text : List Char} (unquoted : ¬QuotesAlias declared text) :
    ¬NamesAlias declared (expandRepeatedly (bindAll expandRepeatedly declared) text) := by
  have paired := paired_expansions ordered
  have compared : Compared declared text _ _ :=
    paired.compared (List.Subset.refl _) fun bound listed _ => listed
  rw [(expandRepeatedly_eq_iff ordered text).2 unquoted]
  exact fun left => unquoted (compared.left.1 left)

end Ordered

/-! ### References in literals -/

/-- Aliases whose references, in literals as well, are to those before them are kept with all names
replaced, and none is left. -/
theorem Paired.replaceNames_all {declared before : List TypeAlias} {all kept : Aliases}
    {text : List Char}
    (paired : Paired (fun _ all kept => kept = all ∧ ¬NamesAlias declared all) before all kept)
    (within : before ⊆ declared)
    (known : ∀ bound ∈ declared, bound.name ∈ names text → bound ∈ before) :
    expandRepeatedly kept text = replaceNames all text ∧
      ¬NamesAlias declared (replaceNames all text) := by
  have same : replaceNames kept text = replaceNames all text := by
    refine respell_congr fun word quoted _ => ?_
    obtain ⟨bound, isBound, rfl⟩ | ⟨-, isAll, isKept⟩ := paired.alias_or_free word
    · exact String.toList_injective (paired.bound bound isBound).1
    · rw [isAll, isKept]
  have none : ¬NamesAlias declared (replaceNames all text) := by
    rintro ⟨bound, listed, isName⟩
    obtain ⟨word, member, inMeaning⟩ := mem_names_replaceNames.1 isName
    obtain ⟨other, isOther, rfl⟩ | ⟨absent, isAll, -⟩ := paired.alias_or_free word
    · exact (paired.bound other isOther).2 ⟨bound, listed, inMeaning⟩
    · rw [isAll, names_of_mem member, List.mem_singleton] at inMeaning
      subst inMeaning
      exact absent (List.mem_map_of_mem (known bound listed member))
  refine ⟨?_, none⟩
  rw [expandRepeatedly_eq_iterate, same]
  exact paired.iterate_eq_self within none _

/-- A text is read with all its names replaced, in literals as well, if the names in the literals of
aliases are those of aliases before them. -/
theorem expandRepeatedly_all {declared : List TypeAlias} (ordered : Ordered names declared)
    (text : List Char) :
    expandRepeatedly (bindAll expandRepeatedly declared) text =
        replaceNames (bindAll replaceNames declared) text ∧
      ¬NamesAlias declared (replaceNames (bindAll replaceNames declared) text) := by
  have paired : Paired (fun _ all kept => kept = all ∧ ¬NamesAlias declared all) declared
      (bindAll replaceNames declared) (bindAll expandRepeatedly declared) := by
    refine paired_bindAll ordered.distinct fun before bound after split paired => ?_
    subst split
    exact paired.replaceNames_all (List.subset_append_left _ _)
      fun other listed refers => ordered.mem_before listed refers
  exact paired.replaceNames_all (List.Subset.refl _) fun bound listed _ => listed

end Workflow.Declaration
