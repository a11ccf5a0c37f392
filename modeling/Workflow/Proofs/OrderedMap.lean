/-
This file says what the changes of an ordered map do to its keys and to looking
them up, and when two maps are equal: when their keys come in the order of one list
of names and every name has the same value in both.
-/

import Mathlib.Data.List.Basic
import Mathlib.Data.List.Forall2
import Mathlib.Data.List.Nodup
import Workflow.OrderedMap

namespace Workflow.OrderedMap

variable {Key Value : Type} [DecidableEq Key]

theorem get?_eq_none_iff {map : OrderedMap Key Value} {key : Key} :
    map.get? key = none ↔ key ∉ map.keys := by
  rw [get?, Option.map_eq_none_iff, List.find?_eq_none, keys, List.mem_map, not_exists]
  refine forall_congr' fun entry => ?_
  simp

theorem mem_keys_iff {map : OrderedMap Key Value} {key : Key} :
    key ∈ map.keys ↔ ∃ value, map.get? key = some value := by
  rw [← Option.isSome_iff_exists, ← Option.ne_none_iff_isSome, ne_eq, get?_eq_none_iff,
    Decidable.not_not]

theorem contains_iff {map : OrderedMap Key Value} {key : Key} :
    map.contains key = true ↔ key ∈ map.keys := by
  rw [contains, Option.isSome_iff_exists, mem_keys_iff]

theorem mem_entries_of_get? {map : OrderedMap Key Value} {key : Key} {value : Value}
    (found : map.get? key = some value) : (key, value) ∈ map.entries := by
  obtain ⟨⟨other, held⟩, isFound, rfl⟩ := Option.map_eq_some_iff.1 found
  have same : other = key := by simpa using List.find?_some isFound
  exact same ▸ List.mem_of_find?_eq_some isFound

/-- If keys are distinct, every entry is found under its key. -/
theorem get?_of_mem {map : OrderedMap Key Value} (distinct : map.keys.Nodup)
    {entry : Key × Value} (member : entry ∈ map.entries) : map.get? entry.1 = some entry.2 := by
  obtain ⟨value, found⟩ := mem_keys_iff.1 (List.mem_map_of_mem member)
  have same : entry = (entry.1, value) :=
    List.inj_on_of_nodup_map distinct member (mem_entries_of_get? found) rfl
  rw [found, same]

/-! ### Writing -/

theorem entries_insert_of_notMem {map : OrderedMap Key Value} {key : Key} {value : Value}
    (absent : key ∉ map.keys) : (map.insert key value).entries = map.entries ++ [(key, value)] := by
  obtain ⟨entries⟩ := map
  show insertEntry key value entries = entries ++ [(key, value)]
  induction entries with
  | nil => rfl
  | cons entry rest inductionHypothesis =>
    have apart : entry.1 ≠ key := fun same => absent (same ▸ List.mem_cons_self)
    rw [insertEntry, if_neg apart, inductionHypothesis fun member =>
      absent (List.mem_cons_of_mem _ member)]
    rfl

/-- A value is replaced in place. -/
theorem entries_insert_of_mem {map : OrderedMap Key Value} (distinct : map.keys.Nodup) {key : Key}
    {value : Value} (present : key ∈ map.keys) :
    (map.insert key value).entries =
      map.entries.map fun entry => if entry.1 = key then (key, value) else entry := by
  obtain ⟨entries⟩ := map
  show insertEntry key value entries = _
  change (entries.map (·.1)).Nodup at distinct
  change key ∈ entries.map (·.1) at present
  induction entries with
  | nil => cases present
  | cons entry rest inductionHypothesis =>
    obtain ⟨first, others⟩ := List.nodup_cons.1 distinct
    rw [insertEntry, List.map_cons]
    by_cases same : entry.1 = key
    · have kept : (rest.map fun entry => if entry.1 = key then (key, value) else entry) = rest := by
        refine (List.map_congr_left fun other member => if_neg ?_).trans (List.map_id' rest)
        rintro rfl
        exact first (List.mem_map.2 ⟨other, member, same.symm⟩)
      rw [if_pos same, if_pos same, kept]
    · have later := (List.mem_cons.1 present).resolve_left (Ne.symm same)
      rw [if_neg same, if_neg same, inductionHypothesis others later]

/-- Writing goes along with a change of all values. -/
theorem map_insertEntry {Image : Type} (change : Value → Image) (key : Key) (value : Value)
    (entries : List (Key × Value)) :
    (insertEntry key value entries).map (fun entry => (entry.1, change entry.2)) =
      insertEntry key (change value) (entries.map fun entry => (entry.1, change entry.2)) := by
  induction entries with
  | nil => rfl
  | cons entry rest inductionHypothesis =>
    rw [insertEntry, List.map_cons, insertEntry]
    split
    · rfl
    · rw [List.map_cons, inductionHypothesis]

theorem keys_insert_of_mem {map : OrderedMap Key Value} {key : Key} {value : Value}
    (present : key ∈ map.keys) : (map.insert key value).keys = map.keys := by
  obtain ⟨entries⟩ := map
  show (insertEntry key value entries).map (·.1) = entries.map (·.1)
  change key ∈ entries.map (·.1) at present
  induction entries with
  | nil => cases present
  | cons entry rest inductionHypothesis =>
    rw [insertEntry]
    split
    · next same => rw [List.map_cons, List.map_cons, same]
    · next apart =>
      rcases List.mem_cons.1 present with head | tail
      · exact absurd head.symm apart
      · rw [List.map_cons, List.map_cons, inductionHypothesis tail]

theorem keys_insert (map : OrderedMap Key Value) (key : Key) (value : Value) :
    (map.insert key value).keys = if key ∈ map.keys then map.keys else map.keys ++ [key] := by
  split
  · next present => exact keys_insert_of_mem present
  · next absent =>
    rw [keys, entries_insert_of_notMem absent, List.map_append]
    rfl

/-- Writing keeps the keys distinct. -/
theorem nodup_keys_insert {map : OrderedMap Key Value} (distinct : map.keys.Nodup) (key : Key)
    (value : Value) : (map.insert key value).keys.Nodup := by
  by_cases present : key ∈ map.keys
  · rw [keys_insert_of_mem present]
    exact distinct
  · rw [keys, entries_insert_of_notMem present, List.map_append]
    refine List.nodup_append.2 ⟨distinct, List.nodup_cons.2 ⟨by simp, List.nodup_nil⟩, ?_⟩
    rintro other listed _ isKey rfl
    rw [List.mem_singleton.1 isKey] at listed
    exact present listed

theorem mem_entries_insert {map : OrderedMap Key Value} {key : Key} {value : Value}
    {entry : Key × Value} (member : entry ∈ (map.insert key value).entries) :
    entry = (key, value) ∨ entry ∈ map.entries := by
  obtain ⟨entries⟩ := map
  change entry ∈ insertEntry key value entries at member
  induction entries with
  | nil => exact Or.inl (List.mem_singleton.1 member)
  | cons first rest inductionHypothesis =>
    rw [insertEntry] at member
    split at member
    · exact (List.mem_cons.1 member).imp_right (List.mem_cons_of_mem _)
    · rcases List.mem_cons.1 member with rfl | later
      · exact Or.inr List.mem_cons_self
      · exact (inductionHypothesis later).imp_right (List.mem_cons_of_mem _)

/-- What holds of all entries still does with one more. -/
theorem forall_mem_insert {map : OrderedMap Key Value} {property : Key × Value → Prop}
    (all : ∀ entry ∈ map.entries, property entry) {key : Key} {value : Value}
    (isNew : property (key, value)) : ∀ entry ∈ (map.insert key value).entries, property entry := by
  intro entry member
  rcases mem_entries_insert member with rfl | old
  · exact isNew
  · exact all entry old

/-- Writing under one key keeps maps related whose entries are related one by one. -/
theorem forall₂_insert {related : Key × Value → Key × Value → Prop}
    (sameKey : ∀ entry twin, related entry twin → twin.1 = entry.1)
    {map other : OrderedMap Key Value} (each : List.Forall₂ related map.entries other.entries)
    {key : Key} {value twin : Value} (new : related (key, value) (key, twin)) :
    List.Forall₂ related (map.insert key value).entries (other.insert key twin).entries := by
  obtain ⟨entries⟩ := map
  obtain ⟨others⟩ := other
  change List.Forall₂ related entries others at each
  show List.Forall₂ related (insertEntry key value entries) (insertEntry key twin others)
  induction each with
  | nil => exact .cons new .nil
  | @cons entry copy _ _ pair rest inductionHypothesis =>
    obtain ⟨name, held⟩ := entry
    obtain ⟨_, copied⟩ := copy
    obtain rfl : _ = name := sameKey _ _ pair
    rw [insertEntry, insertEntry]
    split
    · exact .cons new rest
    · exact .cons pair inductionHypothesis

theorem get?_insert (map : OrderedMap Key Value) (key : Key) (value : Value) (other : Key) :
    (map.insert key value).get? other = if key = other then some value else map.get? other := by
  obtain ⟨entries⟩ := map
  show ((insertEntry key value entries).find? fun entry => entry.1 = other).map (·.2) =
    if key = other then some value else (entries.find? fun entry => entry.1 = other).map (·.2)
  induction entries with
  | nil => by_cases same : key = other <;> simp [insertEntry, same]
  | cons entry rest inductionHypothesis =>
    obtain ⟨first, held⟩ := entry
    rw [insertEntry]
    by_cases here : first = key
    · subst here
      by_cases same : first = other
      · simp [same]
      · simp [same]
    · rw [if_neg here]
      by_cases same : first = other
      · subst same
        simp [Ne.symm here]
      · simpa [same] using inductionHypothesis

theorem mem_keys_insert {map : OrderedMap Key Value} {key : Key} {value : Value} {other : Key} :
    other ∈ (map.insert key value).keys ↔ other = key ∨ other ∈ map.keys := by
  rw [mem_keys_iff, get?_insert, mem_keys_iff]
  by_cases same : key = other
  · simp [same]
  · simp [same, Ne.symm same]

theorem get?_elim_insert (map : OrderedMap Key Value) (key : Key) (value : Option Value)
    (other : Key) :
    (value.elim map (map.insert key)).get? other =
      if key = other then value.or (map.get? key) else map.get? other := by
  cases value with
  | none =>
    split
    · next same => rw [same]; rfl
    · rfl
  | some value => exact get?_insert map key value other

/-! ### Erasing -/

theorem erase_of_notMem {map : OrderedMap Key Value} {key : Key} (absent : key ∉ map.keys) :
    map.erase key = map := by
  refine congrArg OrderedMap.mk (List.filter_eq_self.2 fun entry member => ?_)
  refine decide_eq_true fun same => absent ?_
  exact same ▸ List.mem_map_of_mem member

theorem get?_erase_of_ne (map : OrderedMap Key Value) {key other : Key} (apart : other ≠ key) :
    (map.erase key).get? other = map.get? other := by
  rw [get?, get?, erase, List.find?_filter]
  congr 2
  funext entry
  by_cases same : entry.1 = other <;> simp [same, apart]

theorem get?_erase (map : OrderedMap Key Value) (key other : Key) :
    (map.erase key).get? other = if key = other then none else map.get? other := by
  split
  · next same =>
    subst same
    rw [get?_eq_none_iff]
    intro member
    obtain ⟨entry, kept, isKey⟩ := List.mem_map.1 member
    exact of_decide_eq_true (List.mem_filter.1 kept).2 isKey
  · next apart => exact get?_erase_of_ne map (Ne.symm apart)

/-! ### Changing values in place -/

theorem entries_modify (map : OrderedMap Key Value) (key : Key) (change : Value → Value) :
    (map.modify key change).entries = map.entries.map fun entry =>
      (entry.1, if entry.1 = key then change entry.2 else entry.2) := rfl

theorem keys_modify (map : OrderedMap Key Value) (key : Key) (change : Value → Value) :
    (map.modify key change).keys = map.keys := by
  rw [keys, entries_modify, List.map_map]
  rfl

theorem get?_modify (map : OrderedMap Key Value) (key : Key) (change : Value → Value)
    (other : Key) : (map.modify key change).get? other =
      (map.get? other).map fun value => if other = key then change value else value := by
  rw [get?, get?, entries_modify, List.find?_map, Option.map_map, Option.map_map]
  show Option.map _ (map.entries.find? fun entry => entry.1 = other) = _
  cases found : map.entries.find? fun entry => entry.1 = other with
  | none => rfl
  | some entry =>
    have same : entry.1 = other := of_decide_eq_true (List.find?_some found :)
    rw [Option.map_some, Option.map_some, Function.comp_apply, Function.comp_apply, same]

omit [DecidableEq Key] in
theorem entries_mapValues (map : OrderedMap Key Value) (change : Value → Value) :
    (map.mapValues change).entries = map.entries.map fun entry => (entry.1, change entry.2) := rfl

/-! ### Maps with keys in a given order -/

/-- The keys of the map are among the given names and come in their order. -/
def Follows (map : OrderedMap Key Value) (names : List Key) : Prop :=
  map.entries = names.filterMap fun name => (map.get? name).map fun value => (name, value)

theorem Follows.keys_subset {map : OrderedMap Key Value} {names : List Key}
    (follows : map.Follows names) : map.keys ⊆ names := by
  intro key member
  rw [keys, follows] at member
  obtain ⟨entry, inEntries, rfl⟩ := List.mem_map.1 member
  obtain ⟨name, inNames, found⟩ := List.mem_filterMap.1 inEntries
  obtain ⟨value, -, rfl⟩ := Option.map_eq_some_iff.1 found
  exact inNames

/-- A name may be added that the map does not hold. -/
theorem Follows.append {map : OrderedMap Key Value} {names : List Key}
    (follows : map.Follows names) {name : Key} (fresh : name ∉ names) :
    map.Follows (names ++ [name]) := by
  have absent := get?_eq_none_iff.2 fun member => fresh (follows.keys_subset member)
  rw [Follows, List.filterMap_append, ← follows]
  simp [absent]

/-- A name may be added together with its value. -/
theorem Follows.insert {map : OrderedMap Key Value} {names : List Key}
    (follows : map.Follows names) {name : Key} (value : Value) (fresh : name ∉ names) :
    (map.insert name value).Follows (names ++ [name]) := by
  have absent : name ∉ map.keys := fun member => fresh (follows.keys_subset member)
  rw [Follows, entries_insert_of_notMem absent, List.filterMap_append, List.filterMap_cons,
    get?_insert, if_pos rfl]
  refine congrArg (· ++ [(name, value)])
    (follows.trans (List.filterMap_congr fun other member => ?_))
  have apart : name ≠ other := fun same => fresh (same ▸ member)
  rw [get?_insert, if_neg apart]

/-- A map with distinct keys follows them. -/
theorem follows_keys {map : OrderedMap Key Value} (distinct : map.keys.Nodup) :
    map.Follows map.keys := by
  rw [Follows, keys, List.filterMap_map]
  refine (List.filterMap_some.symm.trans (List.filterMap_congr fun entry member => ?_))
  rw [Function.comp_apply, get?_of_mem distinct member]
  rfl

/-- Maps that follow the same names are the same if they hold the same under each of them. -/
theorem Follows.ext {map other : OrderedMap Key Value} {names : List Key}
    (follows : map.Follows names) (followsOther : other.Follows names)
    (same : ∀ name ∈ names, other.get? name = map.get? name) : other = map := by
  have entries : other.entries = map.entries :=
    followsOther.trans ((List.filterMap_congr fun name member => by rw [same name member]).trans
      follows.symm)
  cases other
  cases map
  exact congrArg OrderedMap.mk entries

end Workflow.OrderedMap
