/-
This file proves that an object with ascending keys is known from its members.

Inserting keeps the keys ascending and replaces or adds one member, so an object made
by inserting members one after the other does not depend on their order as long as
their keys are different.
-/

import Mathlib.Data.List.Nodup
import Mathlib.Data.String.Basic
import Workflow.Json.Basic

namespace Workflow.Object

/-- Members in ascending order of their keys. -/
def Ascending (members : Object) : Prop :=
  members.Pairwise fun first second => first.1 < second.1

variable {members other : Object} {key : String}

/-! ### Members found -/

theorem mem_of_get? {value : Json} (found : get? members key = some value) :
    (key, value) ∈ members := by
  induction members with
  | nil => cases found
  | cons entry rest inductionHypothesis =>
    rw [get?] at found
    split at found
    · next same =>
      cases found
      rw [← same]
      exact List.mem_cons_self
    · exact List.mem_cons_of_mem entry (inductionHypothesis found)

theorem get?_eq_none_iff : get? members key = none ↔ key ∉ keys members := by
  induction members with
  | nil => simp [get?, keys]
  | cons entry rest inductionHypothesis =>
    rw [get?, keys, List.map_cons, List.mem_cons, not_or]
    split
    · next same => simp [same]
    · next apart => rw [inductionHypothesis, keys, and_iff_right (Ne.symm apart)]

/-- If the keys are different, every member is found. -/
theorem get?_eq_some_iff (distinct : (keys members).Nodup) {value : Json} :
    get? members key = some value ↔ (key, value) ∈ members := by
  refine ⟨mem_of_get?, fun member => ?_⟩
  cases found : get? members key with
  | none => exact absurd (List.mem_map_of_mem member) (get?_eq_none_iff.1 found)
  | some other =>
    have same := List.inj_on_of_nodup_map distinct (mem_of_get? found) member rfl
    rw [(Prod.mk.inj same).2]

/-! ### Ascending keys -/

theorem Ascending.nodup (ascending : members.Ascending) : (keys members).Nodup :=
  List.pairwise_map.2 (ascending.imp fun less => ne_of_lt less)

/-- Two objects with the same members are the same. -/
theorem Ascending.ext (ascending : members.Ascending) (ascendingOther : other.Ascending)
    (same : ∀ key, get? members key = get? other key) : members = other := by
  have member (entry : String × Json) : entry ∈ members ↔ entry ∈ other := by
    rw [← get?_eq_some_iff ascending.nodup, ← get?_eq_some_iff ascendingOther.nodup, same]
  refine List.Perm.eq_of_pairwise (fun first second _ _ less more => ?_) ascending ascendingOther ?_
  · exact absurd (less.trans more) (lt_irrefl _)
  · refine (List.perm_ext_iff_of_nodup ?_ ?_).2 member
    · exact ascending.nodup.of_map _
    · exact ascendingOther.nodup.of_map _

theorem eq_or_mem_of_mem_insert {value : Json} {entry : String × Json}
    (member : entry ∈ insert members key value) : entry = (key, value) ∨ entry ∈ members := by
  induction members with
  | nil => exact Or.inl (List.mem_singleton.1 member)
  | cons first rest inductionHypothesis =>
    rw [insert] at member
    split at member
    · rcases List.mem_cons.1 member with same | later
      · exact Or.inl same
      · exact Or.inr (List.mem_cons_of_mem first later)
    · split at member
      · exact List.mem_cons.1 member
      · rcases List.mem_cons.1 member with rfl | later
        · exact Or.inr List.mem_cons_self
        · exact (inductionHypothesis later).imp_right (List.mem_cons_of_mem first)

theorem Ascending.insert (ascending : members.Ascending) (key : String) (value : Json) :
    (insert members key value).Ascending := by
  induction members with
  | nil => exact List.pairwise_singleton _ _
  | cons first rest inductionHypothesis =>
    obtain ⟨less, ascendingRest⟩ := List.pairwise_cons.1 ascending
    rw [Object.insert]
    split
    · next same => exact List.pairwise_cons.2 ⟨fun entry member => same ▸ less entry member,
        ascendingRest⟩
    · next apart =>
      split
      · next before =>
        refine List.pairwise_cons.2 ⟨fun entry member => ?_, ascending⟩
        rcases List.mem_cons.1 member with rfl | later
        · exact before
        · exact before.trans (less entry later)
      · next after =>
        refine List.pairwise_cons.2 ⟨fun entry member => ?_, inductionHypothesis ascendingRest⟩
        rcases eq_or_mem_of_mem_insert member with rfl | old
        · exact lt_of_le_of_ne (not_lt.1 after) (Ne.symm apart)
        · exact less entry old

theorem get?_insert (members : Object) (key : String) (value : Json) (wanted : String) :
    get? (insert members key value) wanted =
      if key = wanted then some value else get? members wanted := by
  induction members with
  | nil => rfl
  | cons first rest inductionHypothesis =>
    rw [insert]
    split
    · next same =>
      rw [get?, get?, ← same]
      split <;> rfl
    · next apart =>
      split
      · rw [get?]
      · rw [get?, get?, inductionHypothesis]
        split
        · next here =>
          rw [if_neg]
          rintro rfl
          exact apart here.symm
        · rfl

theorem Ascending.erase (ascending : members.Ascending) (key : String) :
    (erase members key).Ascending :=
  List.Pairwise.filter _ ascending

theorem get?_erase (members : Object) (key wanted : String) :
    get? (erase members key) wanted = if key = wanted then none else get? members wanted := by
  induction members with
  | nil => exact (ite_self none).symm
  | cons first rest inductionHypothesis =>
    rw [erase] at inductionHypothesis ⊢
    rw [List.filter_cons, get?]
    by_cases erased : first.1 = key
    · rw [if_neg (by simpa using erased), inductionHypothesis, erased]
      split <;> rfl
    · rw [if_pos (by simpa using erased), get?, inductionHypothesis]
      split
      · next here => rw [if_neg fun same => erased (here.trans same.symm)]
      · rfl

/-! ### Members inserted one after the other -/

theorem Ascending.foldl_insert (ascending : members.Ascending) (entries : List (String × Json)) :
    (entries.foldl (fun members (key, value) => Object.insert members key value)
      members).Ascending := by
  induction entries generalizing members with
  | nil => exact ascending
  | cons entry rest inductionHypothesis => exact inductionHypothesis (ascending.insert _ _)

theorem ascending_ofList (entries : List (String × Json)) : (ofList entries).Ascending :=
  Ascending.foldl_insert List.Pairwise.nil entries

theorem mem_or_mem_of_mem_foldl_insert {entries : List (String × Json)} {entry : String × Json}
    (member : entry ∈ entries.foldl (fun members (key, value) => insert members key value)
      members) : entry ∈ entries ∨ entry ∈ members := by
  induction entries generalizing members with
  | nil => exact Or.inr member
  | cons first rest inductionHypothesis =>
    rcases inductionHypothesis member with later | started
    · exact Or.inl (List.mem_cons_of_mem first later)
    · rcases eq_or_mem_of_mem_insert started with rfl | old
      · exact Or.inl List.mem_cons_self
      · exact Or.inr old

theorem mem_of_mem_ofList {entries : List (String × Json)} {entry : String × Json}
    (member : entry ∈ ofList entries) : entry ∈ entries :=
  (mem_or_mem_of_mem_foldl_insert member).resolve_right List.not_mem_nil

/-- Members with different keys are found whatever the order they were inserted in. -/
theorem get?_ofList {entries : List (String × Json)} (distinct : (keys entries).Nodup)
    (key : String) : get? (ofList entries) key = get? entries key := by
  have inserted (start : Object) :
      get? (entries.foldl (fun members (key, value) => insert members key value) start) key =
        (get? entries key).or (get? start key) := by
    induction entries generalizing start with
    | nil => rfl
    | cons entry rest inductionHypothesis =>
      obtain ⟨absent, distinctRest⟩ := List.nodup_cons.1 distinct
      rw [List.foldl_cons, inductionHypothesis distinctRest, get?_insert, get?]
      split
      · next same => rw [get?_eq_none_iff.2 (same ▸ absent), Option.none_or, Option.some_or]
      · rfl
  rw [ofList, inserted, get?, Option.or_none]

/-- Ascending members are their own object. -/
theorem Ascending.ofList (ascending : members.Ascending) : ofList members = members :=
  (ascending_ofList members).ext ascending (get?_ofList ascending.nodup)

end Workflow.Object
