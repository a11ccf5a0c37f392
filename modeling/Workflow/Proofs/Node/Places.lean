/-
This file changes lists at a place.

The items that a test accepts are found by their places, and where no other item is
accepted, what is done at the place is done to the accepted item alone. Removing a
place moves those behind it.
-/

import Mathlib.Data.List.Basic
import Mathlib.Data.List.Induction
import Mathlib.Data.List.InsertIdx
import Workflow.Graph.MultiSlot

namespace Workflow

section Places

variable {Item : Type}

theorem exists_split_of_getElem? {items : List Item} {place : Nat} {item : Item}
    (found : items[place]? = some item) :
    ∃ before after, items = before ++ item :: after ∧ before.length = place := by
  obtain ⟨inRange, rfl⟩ := List.getElem?_eq_some_iff.1 found
  refine ⟨items.take place, items.drop (place + 1), ?_, ?_⟩
  · rw [List.getElem_cons_drop, List.take_append_drop]
  · rw [List.length_take]
    omega

theorem eraseIdx_split (before after : List Item) (item : Item) :
    (before ++ item :: after).eraseIdx before.length = before ++ after := by
  rw [List.eraseIdx_append_of_length_le (Nat.le_refl _), Nat.sub_self]
  rfl

theorem modify_split (before after : List Item) (item : Item) (change : Item → Item) :
    (before ++ item :: after).modify before.length change = before ++ change item :: after := by
  induction before with
  | nil => rfl
  | cons first rest inductionHypothesis =>
    exact congrArg (first :: ·) inductionHypothesis

theorem map_modify {Value : Type} (view : Item → Value) (change : Item → Item)
    (revise : Value → Value) (agrees : ∀ item, view (change item) = revise (view item))
    (items : List Item) (place : Nat) :
    (items.modify place change).map view = (items.map view).modify place revise := by
  refine List.ext_getElem? fun spot => ?_
  simp only [List.getElem?_map, List.getElem?_modify, Option.map_eq_map, Option.map_map]
  congr 1
  funext item
  simp only [Function.comp_apply]
  split
  · exact agrees item
  · rfl

theorem map_modify_of_keeps {Value : Type} {view : Item → Value} {change : Item → Item}
    (keeps : ∀ item, view (change item) = view item) (items : List Item) (place : Nat) :
    (items.modify place change).map view = items.map view := by
  rw [map_modify view change id keeps, List.modify_id]

theorem mem_modify {items : List Item} {place : Nat} {change : Item → Item} {item : Item}
    (member : item ∈ items.modify place change) :
    ∃ old ∈ items, item = old ∨ item = change old := by
  obtain ⟨spot, isItem⟩ := List.mem_iff_getElem?.1 member
  rw [List.getElem?_modify, Option.map_eq_map] at isItem
  obtain ⟨old, isOld, rfl⟩ := Option.map_eq_some_iff.1 isItem
  refine ⟨old, List.mem_of_getElem? isOld, ?_⟩
  split
  · exact Or.inr rfl
  · exact Or.inl rfl

theorem getElem?_of_mem_findIdxs {accepts : Item → Bool} {items : List Item} {place : Nat}
    (member : place ∈ items.findIdxs accepts) :
    ∃ item, items[place]? = some item ∧ accepts item = true := by
  obtain ⟨inRange, accepted⟩ := List.mem_findIdxs_iff_exists_getElem_pos.1 member
  exact ⟨items[place], List.getElem?_eq_getElem inRange, accepted⟩

theorem mem_findIdxs_of_getElem? {accepts : Item → Bool} {items : List Item} {place : Nat}
    {item : Item} (found : items[place]? = some item) (accepted : accepts item = true) :
    place ∈ items.findIdxs accepts := by
  obtain ⟨inRange, rfl⟩ := List.getElem?_eq_some_iff.1 found
  exact List.mem_findIdxs_iff_exists_getElem_pos.2 ⟨inRange, accepted⟩

theorem getElem?_findIdxs (accepts : Item → Bool) (items : List Item) :
    (items.findIdxs accepts).map (fun place => items[place]?) =
      (items.filter accepts).map some := by
  induction items using List.reverseRecOn with
  | nil => rfl
  | append_singleton items item inductionHypothesis =>
    rw [List.findIdxs_append, List.map_append, List.filter_append, List.map_append,
      ← inductionHypothesis]
    congr 1
    · refine List.map_congr_left fun place member => ?_
      have inRange := List.lt_add_of_mem_findIdxs place member
      rw [List.getElem?_append_left (by omega)]
    · by_cases accepted : accepts item = true <;> simp [accepted]

/-- Removing a place from the places of accepted items, and moving those behind it, gives the places
of the accepted items once the item at the place is gone. -/
theorem shiftPlaces_findIdxs (accepts : Item → Bool) (before after : List Item) (item : Item) :
    Node.shiftPlaces before.length ((before ++ item :: after).findIdxs accepts) =
      (before ++ after).findIdxs accepts := by
  have early : Node.shiftPlaces before.length (before.findIdxs accepts) =
      before.findIdxs accepts := by
    have below : ∀ place ∈ before.findIdxs accepts, place < before.length := fun place member => by
      simpa using List.lt_add_of_mem_findIdxs place member
    rw [Node.shiftPlaces, List.filter_eq_self.2 fun place member => by
      have := below place member
      simp only [ne_eq, decide_eq_true_eq]
      omega]
    refine (List.map_congr_left fun place member => ?_).trans (List.map_id _)
    have := below place member
    rw [shiftDown, if_neg (by omega)]
    rfl
  have late : Node.shiftPlaces before.length (after.findIdxs accepts (before.length + 1)) =
      after.findIdxs accepts before.length := by
    have above : ∀ place ∈ after.findIdxs accepts (before.length + 1), before.length + 1 ≤ place :=
      List.ge_of_mem_findIdxs
    rw [Node.shiftPlaces, List.filter_eq_self.2 fun place member => by
      have := above place member
      simp only [ne_eq, decide_eq_true_eq]
      omega]
    rw [List.findIdxs_start (s := before.length + 1), List.findIdxs_start (s := before.length),
      List.map_map]
    refine List.map_congr_left fun place _ => ?_
    simp only [Function.comp_apply, shiftDown]
    rw [if_pos (by omega)]
    omega
  have append (first second : List Nat) : Node.shiftPlaces before.length (first ++ second) =
      Node.shiftPlaces before.length first ++ Node.shiftPlaces before.length second := by
    simp only [Node.shiftPlaces, List.filter_append, List.map_append]
  rw [List.findIdxs_append, List.findIdxs_append, append, early, Nat.zero_add, List.findIdxs_cons,
    ← late]
  split
  · simp [Node.shiftPlaces]
  · rfl

/-! ### Items that are told apart -/

/-- Changing the item at a place is changing the items that are accepted, if it is the only one. -/
theorem modify_eq_map {accepts : Item → Bool} {items : List Item} {place : Nat}
    {change : Item → Item}
    (only : ∀ spot item, items[spot]? = some item → (accepts item = true ↔ spot = place)) :
    items.modify place change =
      items.map fun item => if accepts item then change item else item := by
  refine List.ext_getElem? fun spot => ?_
  rw [List.getElem?_modify, List.getElem?_map]
  cases found : items[spot]? with
  | none => rfl
  | some item =>
    have here := only spot item found
    by_cases same : spot = place
    · simp [here.2 same, same]
    · simp [Bool.eq_false_iff.2 fun accepted => same (here.1 accepted), Ne.symm same]

/-- Erasing the item at a place is leaving out the items that are accepted, if it is the only
one. -/
theorem eraseIdx_eq_filter {accepts : Item → Bool} {items : List Item} {place : Nat} {item : Item}
    (isItem : items[place]? = some item)
    (only : ∀ spot item, items[spot]? = some item → (accepts item = true ↔ spot = place)) :
    items.eraseIdx place = items.filter fun item => !accepts item := by
  obtain ⟨before, after, rfl, rfl⟩ := exists_split_of_getElem? isItem
  have early : ∀ other ∈ before, (!accepts other) = true := by
    intro other member
    obtain ⟨spot, isOther⟩ := List.mem_iff_getElem?.1 member
    have inRange : spot < before.length := (List.getElem?_eq_some_iff.1 isOther).1
    rw [Bool.not_eq_true', Bool.eq_false_iff]
    intro accepted
    have same := (only spot other ((List.getElem?_append_left inRange).trans isOther)).1 accepted
    omega
  have late : ∀ other ∈ after, (!accepts other) = true := by
    intro other member
    obtain ⟨spot, isOther⟩ := List.mem_iff_getElem?.1 member
    rw [Bool.not_eq_true', Bool.eq_false_iff]
    intro accepted
    have same := (only (before.length + (spot + 1)) other (by
      rw [List.getElem?_append_right (by omega)]
      simpa using isOther)).1 accepted
    omega
  have accepted : accepts item = true := (only before.length item isItem).2 rfl
  rw [eraseIdx_split, List.filter_append, List.filter_cons_of_neg (by rw [accepted]; decide),
    List.filter_eq_self.2 early, List.filter_eq_self.2 late]

/-- Changing the item at a place, where there is a reason to, is changing all items if the others do
not change. -/
theorem modify_eq_map_of_keeps {items : List Item} {place : Nat} {change : Item → Item}
    {reason : Prop} [Decidable reason]
    (keeps : ∀ spot item, items[spot]? = some item → ¬(reason ∧ place = spot) →
      change item = item) :
    (if reason then items.modify place change else items) = items.map change := by
  refine List.ext_getElem? fun spot => ?_
  rw [List.getElem?_map]
  cases found : items[spot]? with
  | none =>
    split
    · rw [List.getElem?_modify, found]
      rfl
    · rw [found]
      rfl
  | some item =>
    by_cases here : reason ∧ place = spot
    · rw [if_pos here.1, here.2, List.getElem?_modify_eq, found]
      rfl
    · rw [Option.map_some, keeps spot item found here]
      split
      · next given =>
        rw [List.getElem?_modify_ne _ _ fun same => here ⟨given, same⟩, found]
      · exact found

/-! ### What items hold -/

section Held

variable {Value : Type} (view : Item → Option Value)

/-- What items hold, under the places of the items counted from a start. -/
def heldFrom (start : Nat) (items : List Item) : List (Nat × Value) :=
  (items.zipIdx start).filterMap fun entry => (view entry.1).map fun value => (entry.2, value)

theorem heldFrom_cons (start : Nat) (item : Item) (rest : List Item) :
    heldFrom view start (item :: rest) =
      ((view item).map fun value => (start, value)).toList ++ heldFrom view (start + 1) rest := by
  rw [heldFrom, List.zipIdx_cons, List.filterMap_cons]
  cases view item <;> rfl

theorem heldFrom_succ (start : Nat) (items : List Item) :
    heldFrom view (start + 1) items =
      (heldFrom view start items).map fun entry => (entry.1 + 1, entry.2) := by
  rw [heldFrom, heldFrom, List.zipIdx_succ, List.filterMap_map, List.map_filterMap]
  refine List.filterMap_congr fun entry _ => ?_
  rw [Function.comp_apply, Option.map_map]
  rfl

/-- Removing an item removes what it holds and moves the places behind it. -/
theorem heldFrom_eraseIdx (items : List Item) (place start : Nat) :
    heldFrom view start (items.eraseIdx place) =
      ((heldFrom view start items).filter fun entry => entry.1 ≠ start + place).map fun entry =>
        (shiftDown (start + place) entry.1, entry.2) := by
  induction items generalizing place start with
  | nil => rfl
  | cons item rest inductionHypothesis =>
    rw [heldFrom_cons, List.filter_append, List.map_append]
    cases place with
    | zero =>
      have head : ((view item).map fun value => (start, value)).toList.filter
          (fun entry => entry.1 ≠ start + 0) = [] := by
        cases view item <;> simp
      have tail : (heldFrom view (start + 1) rest).filter (fun entry => entry.1 ≠ start + 0) =
          heldFrom view (start + 1) rest := by
        refine List.filter_eq_self.2 fun entry member => decide_eq_true ?_
        obtain ⟨⟨other, spot⟩, isItem, isEntry⟩ := List.mem_filterMap.1 member
        obtain ⟨value, -, rfl⟩ := Option.map_eq_some_iff.1 isEntry
        exact Nat.ne_of_gt (List.le_snd_of_mem_zipIdx isItem)
      rw [List.eraseIdx_cons_zero, head, tail, heldFrom_succ, List.map_map]
      refine ((List.map_congr_left fun entry member => ?_).trans (List.map_id _)).symm
      obtain ⟨⟨other, spot⟩, isItem, isEntry⟩ := List.mem_filterMap.1 member
      obtain ⟨value, -, rfl⟩ := Option.map_eq_some_iff.1 isEntry
      have behind := List.le_snd_of_mem_zipIdx isItem
      rw [Function.comp_apply, shiftDown, if_pos (by dsimp only at behind ⊢; omega)]
      rfl
    | succ place =>
      have head : (((view item).map fun value => (start, value)).toList.filter
          (fun entry => entry.1 ≠ start + (place + 1))).map
            (fun entry => (shiftDown (start + (place + 1)) entry.1, entry.2)) =
          ((view item).map fun value => (start, value)).toList := by
        have before : ¬start + (place + 1) < start := by omega
        cases view item <;> simp [shiftDown, before]
      rw [List.eraseIdx_cons_succ, heldFrom_cons, head, inductionHypothesis place (start + 1),
        show start + 1 + place = start + (place + 1) by omega]
/-- The places of what items hold are those of the items that hold something. -/
theorem map_fst_heldFrom (start : Nat) (items : List Item) :
    (heldFrom view start items).map Prod.fst =
      items.findIdxs (fun item => (view item).isSome) start := by
  rw [heldFrom, List.map_filterMap, List.findIdxs_eq_filterMap_zipIdx]
  refine List.filterMap_congr fun entry _ => ?_
  cases view entry.1 <;> rfl

end Held

end Places

end Workflow
