/-
This file proves that filling inputs leaves less missing.

What is missing is looked for slot by slot. Where each slot of a node is filled if it
was filled on another one with the same slots, the search passes the same fields on
both, and whatever it finds missing on the first it finds on the second, in the same
place. The only link or value that fills a field is missed once it is gone.
-/

import Workflow.Proofs.Graph.Forget
import Workflow.Proofs.Node.Missing

namespace Workflow

/-- An input with the same slot that is filled wherever another one is. -/
structure InputSlot.Fills (before after : InputSlot) : Prop where
  info : after.info = before.info
  linked : before.link.isSome = true → after.link.isSome = true
  filled : Node.isUnfilled after = true → Node.isUnfilled before = true

theorem InputSlot.Fills.refl (slot : InputSlot) : slot.Fills slot := ⟨rfl, id, id⟩

/-- A link fills an input. -/
theorem InputSlot.fills_link (slot : InputSlot) (link : LinkId) :
    slot.Fills { slot with link := some link } := by
  refine ⟨rfl, fun _ => rfl, fun unfilled => ?_⟩
  simp [Node.isUnfilled] at unfilled

/-- A value that is not empty fills an input. -/
theorem InputSlot.fills_edited (slot : InputSlot) {value : Json} (isSome : value.isEmpty = false) :
    slot.Fills { slot with native := slot.native.map (NativeValue.edited value) } := by
  refine ⟨rfl, id, fun unfilled => ?_⟩
  cases isNative : slot.native with
  | none =>
    rw [isNative] at unfilled
    simpa only [Node.isUnfilled, isNative, Option.map_none] using unfilled
  | some native =>
    simp [Node.isUnfilled, isNative, NativeValue.edited, isSome] at unfilled

/-- Forgetting links unfills inputs at most. -/
theorem InputSlot.fills_forget (slot : InputSlot) (links : List LinkId) :
    InputSlot.Fills { slot with link := slot.link.filter (· ∉ links) } slot := by
  refine ⟨rfl, fun linked => ?_, fun unfilled => ?_⟩
  · rw [Option.isSome_filter, Option.any_eq_true] at linked
    obtain ⟨link, isLink, -⟩ := linked
    rw [isLink]
    rfl
  · simp only [Node.isUnfilled, Bool.and_eq_true, Bool.not_eq_true', Bool.or_eq_false_iff]
      at unfilled ⊢
    obtain ⟨required, unlinked, empty⟩ := unfilled
    rw [Option.isSome_eq_false_iff, Option.isNone_iff_eq_none] at unlinked
    exact ⟨required, by rw [unlinked]; rfl, empty⟩

theorem forall₂_modify {Item : Type} {related : Item → Item → Prop} {change : Item → Item}
    (keeps : ∀ item, related item item) (changes : ∀ item, related item (change item))
    (items : List Item) (place : Nat) :
    List.Forall₂ related items (items.modify place change) := by
  induction items generalizing place with
  | nil =>
    rw [List.modify_nil]
    exact .nil
  | cons first rest inductionHypothesis =>
    cases place with
    | zero => exact .cons (changes first) (List.forall₂_same.2 fun item _ => keeps item)
    | succ place => exact .cons (keeps first) (inductionHypothesis place)

namespace Node

variable {before after : Node} {blueprint : Blueprint} {node : Node}

/-- A field with keys stays linked. -/
theorem isMultiLinked_of_fills (places : after.multiInputs = before.multiInputs)
    (each : List.Forall₂ InputSlot.Fills before.inputs after.inputs) {field : String}
    (linked : before.isMultiLinked field = true) : after.isMultiLinked field = true := by
  rw [isMultiLinked, List.any_eq_true] at linked ⊢
  obtain ⟨place, isPlace, isLinked⟩ := linked
  rw [places]
  refine ⟨place, isPlace, ?_⟩
  obtain ⟨slot, isSlot, isLinked⟩ := (Option.any_eq_true ..).1 isLinked
  obtain ⟨inRange, rfl⟩ := List.getElem?_eq_some_iff.1 isSlot
  obtain ⟨lengths, fills⟩ := List.forall₂_iff_get.1 each
  rw [List.getElem?_eq_getElem (lengths ▸ inRange), Option.any_some]
  exact (fills place inRange (lengths ▸ inRange)).linked isLinked

/-- The search finds less missing on slots that are filled wherever others are. -/
theorem sublist_missingAmong (linked : ∀ field, before.isMultiLinked field = true →
    after.isMultiLinked field = true) {slots later : List InputSlot}
    (each : List.Forall₂ InputSlot.Fills slots later) (passed : List String) :
    (after.missingAmong passed later).Sublist (before.missingAmong passed slots) := by
  induction each generalizing passed with
  | nil => exact .refl _
  | @cons slot copy _ _ fills _ inductionHypothesis =>
    simp only [missingAmong, fills.info]
    split
    · split
      · exact inductionHypothesis passed
      · by_cases filled : (slot.info.optional || before.isMultiLinked slot.info.field) = true
        · have stays : (slot.info.optional || after.isMultiLinked slot.info.field) = true := by
            rw [Bool.or_eq_true] at filled ⊢
            exact filled.imp_right (linked _)
          rw [if_pos filled, if_pos stays]
          exact inductionHypothesis _
        · rw [if_neg filled]
          split
          · exact (inductionHypothesis _).cons _
          · exact (inductionHypothesis _).cons_cons _
    · by_cases unfilled : isUnfilled copy = true
      · rw [if_pos unfilled, if_pos (fills.filled unfilled)]
        exact (inductionHypothesis passed).cons_cons _
      · rw [if_neg unfilled]
        split
        · exact (inductionHypothesis passed).cons _
        · exact inductionHypothesis passed

theorem sublist_missingFields (places : after.multiInputs = before.multiInputs)
    (each : List.Forall₂ InputSlot.Fills before.inputs after.inputs) :
    after.missingFields.Sublist before.missingFields :=
  sublist_missingAmong (fun _ => isMultiLinked_of_fills places each) each []

/-! ### The only filler of a field -/

/-- A link feeds an input of a required field, and nothing else fills the field: no other link feeds
a slot of it, and if it has no keys, its native value is not optional and empty. -/
def OnlyFiller (node : Node) (link : LinkId) : Prop :=
  ∃ slot ∈ node.inputs, slot.link = some link ∧ slot.info.optional = false ∧
    (slot.info.isMulti = true → ∀ other ∈ node.inputs, other.info.field = slot.info.field →
      ∀ id, other.link = some id → id = link) ∧
    (slot.info.isMulti = false → ∀ native, slot.native = some native →
      native.optional = false ∧ native.value.isEmpty = true)

/-- Without the only link that fills it, a field is missing. -/
theorem OnlyFiller.not_isComplete {link : LinkId} (only : node.OnlyFiller link)
    (sound : blueprint.Sound) (fits : (node.forget [link]).Fits blueprint) :
    (node.forget [link]).isComplete = false := by
  obtain ⟨slot, isSlot, linked, required, keyed, plain⟩ := only
  let copy : InputSlot := { slot with link := none }
  have isCopy : copy ∈ (node.forget [link]).inputs := by
    refine List.mem_map.2 ⟨slot, isSlot, congrArg (fun link => { slot with link := link }) ?_⟩
    rw [linked]
    simp
  have lacks : (node.forget [link]).lacks copy = true := by
    cases isMulti : copy.info.isMulti with
    | false =>
      rw [lacks_of_plain isMulti]
      cases isNative : slot.native with
      | none => simp [copy, isUnfilled, required, isNative]
      | some native =>
        obtain ⟨needed, empty⟩ := plain isMulti native isNative
        simp [copy, isUnfilled, required, isNative, needed, empty]
    | true =>
      have unlinked : (node.forget [link]).isMultiLinked copy.info.field = false := by
        refine Bool.eq_false_iff.2 fun isLinked => ?_
        obtain ⟨other, isOther, isOf, stays⟩ := (fits.isMultiLinked_iff sound).1 isLinked
        obtain ⟨old, isOld, rfl⟩ := List.mem_map.1 isOther
        rw [Option.isSome_filter, Option.any_eq_true] at stays
        obtain ⟨id, isLink, kept⟩ := stays
        have same := keyed isMulti old isOld (SlotInfo.isOf_iff.1 isOf).2 id isLink
        exact of_decide_eq_true kept (List.mem_singleton.2 same)
      rw [lacks_of_isMulti isMulti, unlinked]
      simp [copy, required]
  have missing := (fits.mem_missingFields sound).2 ⟨copy, isCopy, rfl, lacks⟩
  refine Bool.eq_false_iff.2 fun complete => ?_
  rw [List.isEmpty_iff.1 complete] at missing
  cases missing

end Node

end Workflow
