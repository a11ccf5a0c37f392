/-
This file proves that registries whose schemas are read from sources hold declared
models only, and that the names under which they find models have a dot.
-/

import Workflow.Proofs.Schema.Names
import Workflow.Proofs.Text.Split

namespace Workflow

/-- A model that some source declares. -/
def Model.IsDeclared (model : Model) : Prop := ∃ source, model ∈ (Schema.parse source).models.values

theorem Model.IsDeclared.sound {model : Model} (declared : model.IsDeclared) (modelRef : String) :
    (Blueprint.ofModel modelRef model).Sound := by
  obtain ⟨source, isModel⟩ := declared
  exact Blueprint.sound_of_parse isModel modelRef

namespace Registry

open Text

/-- A registry whose schemas are read from sources. -/
def IsRead (registry : Registry) : Prop :=
  ∀ entry ∈ registry.schemas.entries, ∃ source, entry.2 = Schema.parse source

variable {registry : Registry}

theorem isRead_empty (resolution : Resolution) : IsRead { resolution := resolution } :=
  fun _ member => absurd member List.not_mem_nil

theorem IsRead.register (isRead : registry.IsRead) (name source : String) :
    (registry.register name (Schema.parse source)).IsRead := by
  intro entry member
  rcases OrderedMap.mem_entries_insert member with rfl | old
  · exact ⟨source, rfl⟩
  · exact isRead entry old

theorem IsRead.remove (isRead : registry.IsRead) (name : String) :
    (registry.remove name).IsRead :=
  fun entry member => isRead entry (List.mem_of_mem_filter member)

theorem IsRead.isDeclared (isRead : registry.IsRead) {reference : String} {model : Model}
    (found : registry.model? reference = some model) : model.IsDeclared := by
  obtain ⟨⟨schema, name⟩, -, inSchema⟩ := Option.bind_eq_some_iff.1 found
  obtain ⟨declared, isSchema, isModel⟩ := Option.bind_eq_some_iff.1 inSchema
  obtain ⟨source, rfl⟩ := isRead (schema, declared) (OrderedMap.mem_entries_of_get? isSchema)
  exact ⟨source, List.mem_map_of_mem (OrderedMap.mem_entries_of_get? isModel)⟩

/-! ### Qualified names -/

theorem dot_mem_qualify (schema model : String) : '.' ∈ (qualify schema model).toList := by
  simp [qualify, String.toList_append]

/-- Schema and model of a qualified name are joined by a dot. -/
theorem dot_mem_of_qualified? {reference name : String}
    (found : registry.qualified? reference = some name) : '.' ∈ name.toList := by
  rw [qualified?] at found
  split at found
  · next isQualified =>
    cases found
    obtain ⟨parts, isSplit, -⟩ := (Option.any_eq_true ..).1 isQualified
    obtain ⟨_, isCut, -⟩ := Option.map_eq_some_iff.1 isSplit
    obtain ⟨⟨after, before⟩, isFound, -⟩ := Option.map_eq_some_iff.1 isCut
    exact List.mem_reverse.1 (mem_of_cut isFound)
  · obtain ⟨entry, -, rfl⟩ := Option.map_eq_some_iff.1 found
    exact dot_mem_qualify entry.1 reference

theorem dot_mem_of_resolve? {type name : String} (found : registry.resolve? type = some name) :
    '.' ∈ name.toList := by
  rw [resolve?, Option.or_eq_some_iff, Option.or_eq_some_iff] at found
  obtain isAlias | ⟨-, isTag | ⟨-, isCandidate⟩⟩ := found
  · obtain ⟨reference, -, isName⟩ := Option.bind_eq_some_iff.1 isAlias
    exact dot_mem_of_qualified? isName
  · obtain ⟨entry, isFirst, rfl⟩ := Option.map_eq_some_iff.1 isTag
    obtain ⟨schema, -, isModel⟩ := List.mem_flatMap.1 (List.mem_of_find?_eq_some isFirst)
    obtain ⟨model, -, rfl⟩ := List.mem_map.1 isModel
    exact dot_mem_qualify schema.1 model.name
  · obtain ⟨candidate, -, isName⟩ := List.exists_of_findSome?_eq_some isCandidate
    exact dot_mem_of_qualified? isName

end Registry

end Workflow
