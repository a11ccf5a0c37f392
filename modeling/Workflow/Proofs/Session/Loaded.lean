/-
This file proves which models a session holds once schemas are loaded.

Schemas take their names from their paths unless they are given one, so several may
have the same name. They are registered one after the other, and a later one replaces
an earlier one of its name. So the session holds the models of the schemas that come
last under their names, and if no two have the same name, those of all of them.
-/

import Workflow.Command.Load
import Workflow.Proofs.Graph.Run
import Workflow.Proofs.Registry.Lookup

namespace Workflow

/-- An entry of a list that has no later one of the same name. -/
def SchemaEntry.IsLast (entries : List SchemaEntry) (entry : SchemaEntry) : Prop :=
  ∃ before after, entries = before ++ entry :: after ∧
    ∀ later ∈ after, later.registryName ≠ entry.registryName

theorem SchemaEntry.isLast_concat {entries : List SchemaEntry} {entry other : SchemaEntry} :
    IsLast (entries ++ [entry]) other ↔
      other = entry ∨ IsLast entries other ∧ entry.registryName ≠ other.registryName := by
  constructor
  · rintro ⟨before, after, split, apart⟩
    obtain rfl | ⟨rest, last, rfl⟩ := List.eq_nil_or_concat after
    · exact Or.inl (List.singleton_inj.1 (List.append_inj' split rfl).2).symm
    · rw [List.concat_eq_append] at apart split
      rw [← List.cons_append, ← List.append_assoc] at split
      obtain ⟨early, same⟩ := List.append_inj' split rfl
      obtain rfl := List.singleton_inj.1 same
      refine Or.inr ⟨⟨before, rest, early, fun later member => ?_⟩, ?_⟩
      · exact apart later (List.mem_append_left _ member)
      · exact apart entry (List.mem_append_right _ List.mem_cons_self)
  · rintro (rfl | ⟨⟨before, after, rfl, apart⟩, differs⟩)
    · exact ⟨entries, [], rfl, fun _ member => absurd member List.not_mem_nil⟩
    · refine ⟨before, after ++ [entry], by simp, fun later member => ?_⟩
      rcases List.mem_append.1 member with early | isLast
      · exact apart later early
      · rw [List.mem_singleton.1 isLast]
        exact differs

/-- If no two entries have the same name, each of them is the last of its name. -/
theorem SchemaEntry.isLast_of_nodup {entries : List SchemaEntry} {entry : SchemaEntry}
    (distinct : (entries.map registryName).Nodup) (member : entry ∈ entries) :
    IsLast entries entry := by
  obtain ⟨before, after, rfl⟩ := List.append_of_mem member
  refine ⟨before, after, rfl, fun later isLater same => ?_⟩
  rw [List.map_append, List.map_cons] at distinct
  have apart := (List.nodup_cons.1 (List.nodup_append.1 distinct).2.1).1
  exact apart (same ▸ List.mem_map_of_mem isLater)

namespace Session

/-- What a session holds once entries are loaded: under each name, the schema of the last entry of
the name. -/
structure Holds (session : Session) (read : ReadFile) (entries : List SchemaEntry) : Prop where
  orderly : session.registry.Orderly
  schemas : ∀ name schema, session.registry.schemas.get? name = some schema ↔
    ∃ entry source, SchemaEntry.IsLast entries entry ∧ entry.registryName = name ∧
      read entry.path = some source ∧ schema = Schema.parse source

variable {session : Session} {read : ReadFile} {entries : List SchemaEntry}

theorem holds_nil (read : ReadFile) (resolution : Resolution) :
    Holds { registry := { resolution := resolution } } read [] where
  orderly := Registry.orderly_run resolution []
  schemas name schema := by
    refine iff_of_false nofun ?_
    rintro ⟨entry, source, ⟨before, after, split, -⟩, -⟩
    simp at split

/-- Loading one more entry. -/
theorem Holds.register (holds : session.Holds read entries) {entry : SchemaEntry} {source : String}
    (isRead : read entry.path = some source) :
    (session.registerSchema entry.registryName source).2.Holds read (entries ++ [entry]) where
  orderly := holds.orderly.change (.register entry.registryName source)
  schemas name schema := by
    refine (iff_of_eq (congrArg (· = some schema) (OrderedMap.get?_insert ..))).trans ?_
    simp only [SchemaEntry.isLast_concat]
    by_cases same : entry.registryName = name
    · rw [if_pos same]
      constructor
      · rintro found
        cases found
        exact ⟨entry, source, Or.inl rfl, same, isRead, rfl⟩
      · rintro ⟨other, text, rfl | ⟨-, differs⟩, isName, isText, rfl⟩
        · rw [isRead] at isText
          rw [Option.some.inj isText]
        · exact absurd (same.trans isName.symm) differs
    · rw [if_neg same, holds.schemas]
      constructor
      · rintro ⟨other, text, isLast, rfl, isText, rfl⟩
        exact ⟨other, text, Or.inr ⟨isLast, same⟩, rfl, isText, rfl⟩
      · rintro ⟨other, text, rfl | ⟨isLast, -⟩, isName, isText, rfl⟩
        · exact absurd isName same
        · exact ⟨other, text, isLast, isName, isText, rfl⟩

/-- Loading readable schemas succeeds. -/
theorem exists_holds (resolution : Resolution)
    (readable : ∀ entry ∈ entries, ∃ source, read entry.path = some source) :
    ∃ session, entries.foldlM (loadSchema read) { registry := { resolution := resolution } } =
      .ok session ∧ session.Holds read entries := by
  induction entries using List.reverseRecOn with
  | nil => exact ⟨_, rfl, holds_nil read resolution⟩
  | append_singleton entries entry inductionHypothesis =>
    obtain ⟨session, isLoaded, holds⟩ := inductionHypothesis fun other member =>
      readable other (List.mem_append_left _ member)
    obtain ⟨source, isRead⟩ := readable entry (List.mem_append_right _ List.mem_cons_self)
    refine ⟨_, ?_, holds.register isRead⟩
    rw [List.foldlM_append, isLoaded]
    show (loadSchema read session entry >>= pure) = _
    rw [bind_pure, loadSchema, isRead]

/-- The models that are listed are those of the entries that come last under their names. -/
theorem Holds.mem_models_iff (holds : session.Holds read entries) {name : String} {model : Model} :
    (name, model) ∈ session.registry.models ↔
      ∃ entry source, SchemaEntry.IsLast entries entry ∧ read entry.path = some source ∧
        model ∈ (Schema.parse source).models.values ∧
        name = qualify entry.registryName model.name := by
  constructor
  · intro listed
    obtain ⟨schema, source, isSchema, -, isModel, -, rfl⟩ := holds.orderly.mem_models listed
    obtain ⟨entry, text, isLast, rfl, isRead, same⟩ := (holds.schemas _ _).1 isSchema
    exact ⟨entry, text, isLast, isRead, same ▸ isModel, rfl⟩
  · rintro ⟨entry, source, isLast, isRead, isModel, rfl⟩
    have held := (holds.schemas _ _).2 ⟨entry, source, isLast, rfl, isRead, rfl⟩
    exact List.mem_flatMap.2 ⟨_, OrderedMap.mem_entries_of_get? held,
      List.mem_map.2 ⟨model, isModel, rfl⟩⟩

/-- Readable schemas are loaded unless there are none. The session then lists the models of those
that come last under their names, and no others, and finds each of them by its qualified name; if
no two schemas have the same name, it lists all models of all of them. -/
theorem models_load (settings : Settings) (paths : List String) (read : ReadFile)
    (readable : ∀ entry ∈ settings.schemasFor paths, ∃ source, read entry.path = some source) :
    let entries := settings.schemasFor paths
    (entries = [] ∧ load settings paths read = .error .noSchemas) ∨
      ∃ session, load settings paths read = .ok session ∧
        (∀ name model, (name, model) ∈ session.registry.models ↔
          ∃ entry source, SchemaEntry.IsLast entries entry ∧ read entry.path = some source ∧
            model ∈ (Schema.parse source).models.values ∧
            name = qualify entry.registryName model.name) ∧
        (∀ name model, (name, model) ∈ session.registry.models →
          session.registry.model? name = some model) ∧
        ((entries.map SchemaEntry.registryName).Nodup →
          ∀ entry ∈ entries, ∀ source, read entry.path = some source →
            ∀ model ∈ (Schema.parse source).models.values,
              (qualify entry.registryName model.name, model) ∈ session.registry.models) := by
  intro entries
  by_cases empty : entries = []
  · refine Or.inl ⟨empty, ?_⟩
    rw [load]
    exact if_pos (List.isEmpty_iff.2 empty)
  · obtain ⟨session, isLoaded, holds⟩ := exists_holds settings.resolution readable
    refine Or.inr ⟨session, ?_, fun _ _ => holds.mem_models_iff,
      fun _ _ listed => holds.orderly.model?_of_mem listed, ?_⟩
    · rw [load]
      exact (if_neg fun none => empty (List.isEmpty_iff.1 none)).trans isLoaded
    · intro distinct entry member source isRead model isModel
      exact holds.mem_models_iff.2
        ⟨entry, source, SchemaEntry.isLast_of_nodup distinct member, isRead, isModel, rfl⟩

/-- Two schemas whose paths end in the same name. -/
def twins : Files :=
  .ofList [("near/flow.py", "class Near(BaseModel):\n    x: int\n"),
    ("far/flow.py", "class Far(BaseModel):\n    x: int\n")]

/-- What is found out about the schemas by reading them. -/
theorem checked_twins :
    (∀ twin ∈ [("near/flow.py", "Near"), ("far/flow.py", "Far")],
      ((twins.read? twin.1).map fun source =>
        (Schema.parse source).models.values.map Model.name) = some [twin.2]) ∧
    ((load {} ["near/flow.py", "far/flow.py"] twins.read?).toOption.map fun session =>
      session.registry.models.map Prod.fst) = some ["flow.Far"] := by
  decide +kernel

theorem exists_twin {path name : String}
    (listed : (path, name) ∈ [("near/flow.py", "Near"), ("far/flow.py", "Far")]) :
    ∃ source, twins.read? path = some source ∧
      ∃ model ∈ (Schema.parse source).models.values, model.name = name := by
  obtain ⟨source, isRead, names⟩ := Option.map_eq_some_iff.1 (checked_twins.1 _ listed)
  have named : name ∈ (Schema.parse source).models.values.map Model.name := by
    rw [names]
    exact List.mem_singleton_self name
  exact ⟨source, isRead, List.mem_map.1 named⟩

/-- The schema that is loaded first is replaced by the other one, and its model is gone. -/
theorem load_hides :
    ∃ session source, load {} ["near/flow.py", "far/flow.py"] twins.read? = .ok session ∧
      twins.read? "near/flow.py" = some source ∧
      ∃ model ∈ (Schema.parse source).models.values,
        qualify (SchemaEntry.registryName { path := "near/flow.py" }) model.name ∉
          session.registry.models.map Prod.fst := by
  obtain ⟨session, isLoaded, names⟩ := Option.map_eq_some_iff.1 checked_twins.2
  obtain ⟨source, isRead, model, isModel, isName⟩ := @exists_twin "near/flow.py" "Near" (by simp)
  refine ⟨session, source, Graph.eq_ok_of_toOption isLoaded, isRead, model, isModel, ?_⟩
  rw [names, isName]
  decide +kernel

/-- Settings that give the first of the schemas a name of its own. -/
def apart : Settings :=
  { schemas := [{ name := some "near", path := "near/flow.py" }, { path := "far/flow.py" }] }

/-- Under different names both schemas are kept. -/
theorem models_load_apart :
    (∀ entry ∈ apart.schemasFor [], ∃ source, twins.read? entry.path = some source) ∧
    ∃ session, load apart [] twins.read? = .ok session ∧
      (∃ model, model.name = "Near" ∧ ("near.Near", model) ∈ session.registry.models) ∧
      ∃ model, model.name = "Far" ∧ ("flow.Far", model) ∈ session.registry.models := by
  obtain ⟨near, nearRead, nearModel, isNear, nearName⟩ :=
    @exists_twin "near/flow.py" "Near" (by simp)
  obtain ⟨far, farRead, farModel, isFar, farName⟩ := @exists_twin "far/flow.py" "Far" (by simp)
  have readable : ∀ entry ∈ apart.schemasFor [],
      ∃ source, twins.read? entry.path = some source := by
    intro entry member
    rcases List.mem_pair.1 member with rfl | rfl
    · exact ⟨near, nearRead⟩
    · exact ⟨far, farRead⟩
  refine ⟨readable, ?_⟩
  obtain ⟨empty, -⟩ | ⟨session, isLoaded, -, -, keeps⟩ := models_load apart [] twins.read? readable
  · cases empty
  · have distinct : ((apart.schemasFor []).map SchemaEntry.registryName).Nodup := by
      decide +kernel
    have nearListed := keeps distinct _ List.mem_cons_self near nearRead nearModel isNear
    have farListed := keeps distinct _ (List.mem_cons_of_mem _ List.mem_cons_self) far farRead
      farModel isFar
    rw [nearName] at nearListed
    rw [farName] at farListed
    exact ⟨session, isLoaded, ⟨nearModel, nearName, nearListed⟩, farModel, farName, farListed⟩

end Session

end Workflow
