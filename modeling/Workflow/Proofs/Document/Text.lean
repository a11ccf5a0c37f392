/-
This file proves that the text of a document that was read from a text holds the same
document.

What is read has no open member with a key of the format, carries no null along, and
nests no deeper than what is read again. So only numbers could change: those that are
not read as they were written.
-/

import Workflow.Proofs.Document.Accepted

namespace Workflow

open Number Source

/-! ### Proper trees -/

namespace Tree

mutual

theorem proper_tree (value : Json) : value.tree.Proper :=
  match value with
  | .null | .bool _ | .string _ => trivial
  | .int value => Numeral.proper_ofInt value
  | .real value => proper_numeral (.real value)
  | .array items => proper_treesOf items
  | .object members => proper_memberTreesOf members

theorem proper_treesOf (items : List Json) : ProperItems (Json.treesOf items) :=
  match items with
  | [] => trivial
  | item :: rest => ⟨proper_tree item, proper_treesOf rest⟩

theorem proper_memberTreesOf (members : List (String × Json)) :
    ProperMembers (Json.memberTreesOf members) :=
  match members with
  | [] => trivial
  | (_, value) :: rest => ⟨proper_tree value, proper_memberTreesOf rest⟩

end

theorem properItems_map {Value : Type} {write : Value → Tree} {items : List Value}
    (proper : ∀ item ∈ items, (write item).Proper) : ProperItems (items.map write) := by
  induction items with
  | nil => trivial
  | cons item rest inductionHypothesis =>
    obtain ⟨first, others⟩ := List.forall_mem_cons.1 proper
    exact ⟨first, inductionHypothesis others⟩

theorem properMembers_append {first later : List (String × Tree)} (isProper : ProperMembers first)
    (others : ProperMembers later) : ProperMembers (first ++ later) := by
  induction first with
  | nil => exact others
  | cons entry rest inductionHypothesis => exact ⟨isProper.1, inductionHypothesis isProper.2⟩

theorem properMembers_optionalMember {Value : Type} {key : String} {write : Value → Tree}
    (proper : ∀ value, (write value).Proper) (value? : Option Value) :
    ProperMembers (optionalMember key write value?) := by
  cases value? with
  | none => trivial
  | some value => exact ⟨proper value, trivial⟩

theorem proper_coordinateTree (coordinate : Single) : (coordinateTree coordinate).Proper := by
  rw [coordinateTree]
  cases isNumeral : coordinate.numeral? with
  | none => trivial
  | some numeral => exact Single.proper_numeral? isNumeral

theorem proper_point (point : Point) : point.tree.Proper :=
  ⟨proper_coordinateTree point.x, proper_coordinateTree point.y, trivial⟩

theorem proper_string (text : String) : (string text).Proper := trivial

theorem proper_bool (value : Bool) : (bool value).Proper := trivial

theorem proper_appearance (appearance : Appearance) : appearance.tree.Proper :=
  properMembers_append (properMembers_append (properMembers_append (properMembers_append
    (properMembers_append (properMembers_optionalMember proper_point _)
      (properMembers_optionalMember proper_point _))
    (properMembers_optionalMember proper_string _)) (properMembers_optionalMember proper_string _))
    (properMembers_optionalMember proper_string _)) (proper_memberTreesOf _)

theorem proper_node (node : NodeEntry) : node.tree.Proper :=
  ⟨trivial, properMembers_append (properMembers_optionalMember proper_appearance _)
    (proper_memberTreesOf _)⟩

theorem proper_edge (edge : EdgeEntry) : edge.tree.Proper := by
  have proper_nat (place : Nat) : (natTree place).Proper := Numeral.proper_ofInt place
  rw [EdgeEntry.tree_eq]
  exact properMembers_append (properMembers_optionalMember proper_string _)
    (properMembers_append (properMembers_optionalMember proper_nat _)
    (properMembers_append (properMembers_optionalMember proper_nat _)
    (properMembers_append (properMembers_optionalMember proper_string _)
    (properMembers_append (properMembers_optionalMember proper_string _)
    (properMembers_append (properMembers_optionalMember proper_bool _)
    (properMembers_append (properMembers_optionalMember proper_tree _)
    (properMembers_append (properMembers_optionalMember proper_tree _) trivial)))))))

theorem proper_document (document : Document) : document.tree.Proper :=
  ⟨trivial, properItems_map fun node _ => proper_node node,
    properItems_map fun edge _ => proper_edge edge, proper_memberTreesOf _⟩

end Tree

/-- When a document is read again from its text, and as what. -/
theorem Document.yields_parse {document : Document} (regular : document.Regular) :
    Yields (parse document.text) document.Readable document.reread := by
  rw [parse, text, read_pretty (Tree.proper_document document)]
  exact (yields_ofSource regular).bind_ok rfl

/-- A document that there can be is read again from its text unless a value nests too deep, the
place of an edge does not fit, or a coordinate is not finite. -/
theorem Document.Valid.parse_text_iff {document : Document} (valid : document.Valid) :
    (∃ again, parse document.text = .ok again) ↔
      document.Shallow ∧ (∀ edge ∈ document.edges, edge.Placed) ∧
      ∀ coordinate ∈ document.coordinates, ∃ value, coordinate = .finite value := by
  rw [← valid.readable_iff]
  have yields := yields_parse valid.regular
  exact ⟨fun ⟨again, isRead⟩ => ((yields again).1 isRead).1,
    fun readable => ⟨document.reread, yields.eq_ok readable⟩⟩

/-! ### Documents that were read -/

/-- Integers and what the reading of a text is trusted with: the other numbers. -/
theorem Document.Accepted.reread? {document : Document} (accepted : document.Accepted)
    (reals : ∀ value, .real value ∈ document.numbers →
      (Number.real value).reread? = some (.real value)) :
    ∀ number ∈ document.numbers, number.reread? = some number := by
  intro number member
  cases number with
  | int value => exact reread?_int (accepted.valid.inRange _ member)
  | real value => exact reals value member

/-- A document that was read from a text is read again from its own text, and so is written the same
way again, if its coordinates are finite and numbers that are no integers are read as they are
written. -/
theorem Document.parse_text_of_parse {text : String} {document : Document}
    (isRead : parse text = .ok document)
    (finite : ∀ coordinate ∈ document.coordinates, ∃ value, coordinate = .finite value)
    (singles : ∀ value, .finite value ∈ document.coordinates →
      (Single.finite value).reread? = some (.finite value))
    (reals : ∀ value, .real value ∈ document.numbers →
      (Number.real value).reread? = some (.real value)) :
    parse document.text = .ok document ∧
      ∀ again, parse document.text = .ok again → again.text = document.text := by
  have accepted := accepted_of_parse isRead
  have numbers := accepted.reread? reals
  have coordinates : ∀ coordinate ∈ document.coordinates,
      coordinate.reread? = some coordinate := by
    intro coordinate member
    obtain ⟨value, rfl⟩ := finite coordinate member
    exact singles value member
  have readable : document.Readable := by
    refine readable_iff_parts.2 ⟨accepted.shallow,
      fun edge member => (accepted.edges edge member).placed,
      fun coordinate member => ?_, fun number member => ?_⟩
    · rw [coordinates coordinate member]
      rfl
    · rw [numbers number member]
      rfl
  have same : parse document.text = .ok document := by
    rw [(yields_parse accepted.valid.regular).eq_ok readable, reread_eq_self coordinates numbers]
  refine ⟨same, fun again isAgain => ?_⟩
  rw [same] at isAgain
  cases isAgain
  rfl

/-- A text with an edge in array form, nulls, missing members and members that the format does not
know. -/
def clipText : String :=
  "\x7b\"nodes\":[" ++
    "\x7b\"gain\":0.25,\"type\":\"Clip\"," ++
      "\"extra\":\x7b\"pos\":[12.5,-3],\"title\":null,\"mark\":\x7b\x7d\x7d\x7d," ++
    "\x7b\"type\":\"Mix\",\"extra\":null\x7d]," ++
  "\"edges\":[[\"edge\",0,1,\"out\",\"in\",true,null,\x7b\"dash\":[1,2.5e-3]\x7d]]," ++
  "\"author\":\"me\"\x7d"

/-- A test that passes on what is read from a text tells that a document is. -/
theorem Document.exists_of_any_parse {text : String} {test : Document → Bool}
    (checked : (parse text).toOption.any test = true) :
    ∃ document, parse text = .ok document ∧ test document = true := by
  cases isRead : parse text with
  | error problem =>
    rw [isRead] at checked
    cases checked
  | ok document =>
    rw [isRead] at checked
    exact ⟨document, rfl, checked⟩

/-- What is found out about the text by reading it. -/
theorem checked_clipText :
    (Document.parse clipText).toOption.any (fun document =>
      document.coordinates.length == 2 && document.numbers.length == 3 &&
        document.coordinates.all (fun coordinate =>
          coordinate.numeral?.isSome && coordinate.reread? == some coordinate) &&
        document.numbers.all fun number => number.reread? == some number) = true := by
  decide +kernel

theorem Document.parse_text_clipText :
    ∃ document, parse clipText = .ok document ∧ parse document.text = .ok document := by
  obtain ⟨document, isRead, checked⟩ := exists_of_any_parse checked_clipText
  simp only [Bool.and_eq_true, List.all_eq_true, beq_iff_eq] at checked
  obtain ⟨⟨-, coordinates⟩, numbers⟩ := checked
  exact ⟨document, isRead, (parse_text_of_parse isRead
    (fun coordinate member => Single.numeral?_isSome_iff.1 (coordinates coordinate member).1)
    (fun value member => (coordinates _ member).2) fun value member => numbers _ member).1⟩

end Workflow
