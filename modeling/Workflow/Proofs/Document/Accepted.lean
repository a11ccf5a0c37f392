/-
This file proves what a document that was read is like.

Open members come in ascending order, without the keys of the format; their values
nest no deeper than the room there was, and numbers are doubles or fit 64 bits. So do
coordinates fit their format. A value that an edge carries along is not null.
-/

import Workflow.Proofs.Document.Valid

namespace Workflow

open Number Source

/-! ### Readers that succeeded -/

section Readers

variable {Draft Value : Type} {read : Draft → String → Source → Except Problem Draft}

/-- What holds of a draft and stays true with every member holds of the draft of all members. -/
theorem readMembers_induction (property : Draft → Prop)
    (each : ∀ draft key source next, property draft → read draft key source = .ok next →
      property next)
    {members : List (List Piece × Source)} {draft result : Draft} (start : property draft)
    (isRead : readMembers read draft members = .ok result) : property result := by
  induction members generalizing draft with
  | nil =>
    cases isRead
    exact start
  | cons entry rest inductionHypothesis =>
    obtain ⟨key, -, isRead⟩ := bind_eq_ok.1 isRead
    obtain ⟨next, isNext, isRead⟩ := bind_eq_ok.1 isRead
    exact inductionHypothesis (each draft key entry.2 next start isNext) isRead

theorem readObject_induction (property : Draft → Prop)
    (each : ∀ draft key source next, property draft → read draft key source = .ok next →
      property next)
    {source : Source} {draft result : Draft} (start : property draft)
    (isRead : readObject read draft source = .ok result) : property result := by
  rw [readObject.eq_def] at isRead
  split at isRead
  · obtain ⟨found, isFound, isRead⟩ := bind_eq_ok.1 isRead
    obtain ⟨_, -, isRead⟩ := bind_eq_ok.1 isRead
    cases isRead
    exact readMembers_induction property each start isFound
  · cases isRead

/-- Every item that was read has what every item has that its reader accepts. -/
theorem forall_of_readItems {reader : Source → Except Problem Value} (property : Value → Prop)
    (each : ∀ source value, reader source = .ok value → property value) {items : List Source}
    {values : List Value} (isRead : readItems reader items = .ok values) :
    ∀ value ∈ values, property value := by
  induction items generalizing values with
  | nil =>
    cases isRead
    exact List.forall_mem_nil _
  | cons item rest inductionHypothesis =>
    obtain ⟨first, isFirst, isRead⟩ := bind_eq_ok.1 isRead
    obtain ⟨others, areOthers, isRead⟩ := bind_eq_ok.1 isRead
    cases isRead
    exact List.forall_mem_cons.2 ⟨each item first isFirst, inductionHypothesis areOthers⟩

theorem forall_of_readArray {reader : Source → Except Problem Value} (property : Value → Prop)
    (each : ∀ source value, reader source = .ok value → property value) {source : Source}
    {values : List Value} (isRead : readArray reader source = .ok values) :
    ∀ value ∈ values, property value := by
  rw [readArray.eq_def] at isRead
  split at isRead
  · obtain ⟨found, isFound, isRead⟩ := bind_eq_ok.1 isRead
    obtain ⟨_, -, isRead⟩ := bind_eq_ok.1 isRead
    cases isRead
    exact forall_of_readItems property each isFound
  · cases isRead

theorem readOnce_map_eq_ok {Answer : Type} {before : Option Value}
    {reader : Source → Except Problem Value} {source : Source} {change : Option Value → Answer}
    {answer : Answer} (isRead : (readOnce before reader source).map change = .ok answer) :
    ∃ value, reader source = .ok value ∧ change (some value) = answer := by
  obtain ⟨once, isOnce, isAnswer⟩ := map_eq_ok.1 isRead
  rw [readOnce] at isOnce
  split at isOnce
  · cases isOnce
  · obtain ⟨value, isValue, rfl⟩ := map_eq_ok.1 isOnce
    exact ⟨value, isValue, isAnswer⟩

/-- What was read is a value, unless it was null. -/
theorem eq_ok_of_readOptional {reader : Source → Except Problem Value} {source : Source}
    {value : Value} (isRead : readOptional reader source = .ok (some value)) :
    source ≠ .null ∧ reader source = .ok value := by
  rw [readOptional.eq_def] at isRead
  split at isRead
  · cases isRead
  · next given =>
    obtain ⟨found, isFound, isValue⟩ := map_eq_ok.1 isRead
    cases isValue
    exact ⟨given, isFound⟩

end Readers

/-! ### Open members -/

/-- Open members as they are read. -/
structure Object.Accepted (known : List String) (room : Nat) (members : Object) : Prop where
  ascending : members.Ascending
  entries : ∀ entry ∈ members, entry.1 ∉ known ∧ entry.2.Sound room

namespace Object.Accepted

variable {known : List String} {room : Nat} {members : Object}

theorem ofList {entries : List (String × Json)}
    (each : ∀ entry ∈ entries, entry.1 ∉ known ∧ entry.2.Sound room) :
    (Object.ofList entries).Accepted known room where
  ascending := ascending_ofList entries
  entries entry member := each entry (mem_of_mem_ofList member)

theorem beside (accepted : members.Accepted known room) : members.Beside known where
  valid := Json.valid_object_iff.2 ⟨accepted.ascending, fun entry member =>
    (accepted.entries entry member).2.valid⟩
  unknown entry member := (accepted.entries entry member).1

theorem shallow (accepted : members.Accepted known room) : Json.memberLevels members ≤ room :=
  Json.memberLevels_le_iff.2 fun entry member => (accepted.entries entry member).2.fits

end Object.Accepted

/-! ### Nodes -/

/-- Entries of open members as they are read. -/
def AcceptedEntries (known : List String) (room : Nat) (entries : List (String × Json)) : Prop :=
  ∀ entry ∈ entries, entry.1 ∉ known ∧ entry.2.Sound room

theorem AcceptedEntries.nil {known : List String} {room : Nat} : AcceptedEntries known room [] :=
  List.forall_mem_nil _

theorem AcceptedEntries.append {known : List String} {room : Nat} {entries : List (String × Json)}
    {key : String} {source : Source} {value : Json} (accepted : AcceptedEntries known room entries)
    (unknown : key ∉ known) (isValue : source.value room = .ok value) :
    AcceptedEntries known room (entries ++ [(key, value)]) :=
  List.forall_mem_append.2
    ⟨accepted, List.forall_mem_singleton.2 ⟨unknown, sound_of_value source isValue⟩⟩

theorem inFormat_of_readCoordinate {source : Source} {coordinate : Single}
    (isRead : readCoordinate source = .ok coordinate) : coordinate.InFormat := by
  obtain ⟨number, -, rfl⟩ := map_eq_ok.1 isRead
  exact Single.inFormat_ofNumber number

theorem Point.inFormat_of_readPoint {source : Source} {point : Point}
    (isRead : readPoint source = .ok point) : point.InFormat := by
  rw [readPoint.eq_def] at isRead
  split at isRead
  · cases isRead
  · obtain ⟨_, -, isRead⟩ := bind_eq_ok.1 isRead
    cases isRead
  · obtain ⟨x, isX, isRead⟩ := bind_eq_ok.1 isRead
    obtain ⟨y, isY, isRead⟩ := bind_eq_ok.1 isRead
    split at isRead
    · obtain ⟨_, -, isRead⟩ := bind_eq_ok.1 isRead
      cases isRead
      exact List.forall_mem_cons.2 ⟨inFormat_of_readCoordinate isX,
        List.forall_mem_singleton.2 (inFormat_of_readCoordinate isY)⟩
    · cases isRead
  · cases isRead

/-- An appearance as far as it is read. -/
structure AppearanceDraft.Accepted (draft : AppearanceDraft) : Prop where
  position : ∀ point ∈ draft.position.join, point.InFormat
  size : ∀ point ∈ draft.size.join, point.InFormat
  others : AcceptedEntries appearanceMembers (depthLimit - appearanceDepth) draft.others

theorem AppearanceDraft.Accepted.read {draft next : AppearanceDraft} {key : String}
    {source : Source} (accepted : draft.Accepted) (isNext : draft.read key source = .ok next) :
    next.Accepted := by
  have isPoint {point? : Option Point} (isRead : readOptional readPoint source = .ok point?) :
      ∀ point ∈ point?, point.InFormat := by
    rintro point ⟨⟩
    exact Point.inFormat_of_readPoint (eq_ok_of_readOptional isRead).2
  rw [AppearanceDraft.read.eq_def] at isNext
  split at isNext
  case h_1 =>
    obtain ⟨point?, isRead, rfl⟩ := readOnce_map_eq_ok isNext
    exact { accepted with position := isPoint isRead }
  case h_2 =>
    obtain ⟨point?, isRead, rfl⟩ := readOnce_map_eq_ok isNext
    exact { accepted with size := isPoint isRead }
  case h_6 =>
    obtain ⟨value, isValue, rfl⟩ := map_eq_ok.1 isNext
    have unknown : key ∉ appearanceMembers := by simp_all [appearanceMembers]
    exact { accepted with others := accepted.others.append unknown isValue }
  all_goals
    obtain ⟨_, -, rfl⟩ := readOnce_map_eq_ok isNext
    exact { accepted with }

/-- An appearance as it is read. -/
structure Appearance.Accepted (appearance : Appearance) : Prop where
  position : ∀ point ∈ appearance.position, point.InFormat
  size : ∀ point ∈ appearance.size, point.InFormat
  others : appearance.others.Accepted appearanceMembers (depthLimit - appearanceDepth)

theorem Appearance.accepted_of_read {source : Source} {appearance : Appearance}
    (isRead : read source = .ok appearance) : appearance.Accepted := by
  obtain ⟨draft, isDraft, isRead⟩ := bind_eq_ok.1 isRead
  cases isRead
  obtain ⟨position, size, others⟩ := readObject_induction AppearanceDraft.Accepted
    (fun _ _ _ _ accepted isNext => accepted.read isNext)
    ⟨fun _ isSome => (by cases isSome), fun _ isSome => (by cases isSome), .nil⟩ isDraft
  exact ⟨position, size, Object.Accepted.ofList others⟩

theorem Appearance.Accepted.valid {appearance : Appearance} (accepted : appearance.Accepted) :
    appearance.Valid := ⟨accepted.position, accepted.size, accepted.others.beside⟩

/-- A node as far as it is read. -/
structure NodeDraft.Accepted (draft : NodeDraft) : Prop where
  appearance : ∀ appearance ∈ draft.appearance.join, appearance.Accepted
  fields : AcceptedEntries reservedFields (depthLimit - nodeDepth) draft.fields

theorem NodeDraft.Accepted.read {draft next : NodeDraft} {key : String} {source : Source}
    (accepted : draft.Accepted) (isNext : draft.read key source = .ok next) : next.Accepted := by
  rw [NodeDraft.read.eq_def] at isNext
  split at isNext
  · obtain ⟨_, -, rfl⟩ := readOnce_map_eq_ok isNext
    exact { accepted with }
  · obtain ⟨drawn?, isDrawn, rfl⟩ := readOnce_map_eq_ok isNext
    refine { accepted with appearance := fun drawn isSome => ?_ }
    rw [show drawn? = some drawn from isSome] at isDrawn
    exact Appearance.accepted_of_read (eq_ok_of_readOptional isDrawn).2
  · obtain ⟨value, isValue, rfl⟩ := map_eq_ok.1 isNext
    have unknown : key ∉ reservedFields := by simp_all [reservedFields, typeTagField]
    exact { accepted with fields := accepted.fields.append unknown isValue }

namespace NodeEntry

/-- A node as it is read. -/
structure Accepted (node : NodeEntry) : Prop where
  appearance : ∀ appearance ∈ node.appearance, appearance.Accepted
  fields : node.fields.Accepted reservedFields (depthLimit - nodeDepth)

theorem accepted_of_read {source : Source} {node : NodeEntry} (isRead : read source = .ok node) :
    node.Accepted := by
  obtain ⟨draft, isDraft, isRead⟩ := bind_eq_ok.1 isRead
  obtain ⟨type, -, isRead⟩ := bind_eq_ok.1 isRead
  cases isRead
  obtain ⟨appearance, fields⟩ := readObject_induction NodeDraft.Accepted
    (fun _ _ _ _ accepted isNext => accepted.read isNext)
    ⟨fun _ isSome => (by cases isSome), .nil⟩ isDraft
  exact ⟨appearance, Object.Accepted.ofList fields⟩

theorem Accepted.valid {node : NodeEntry} (accepted : node.Accepted) : node.Valid where
  appearance appearance isDrawn := (accepted.appearance appearance isDrawn).valid
  fields := accepted.fields.beside

theorem Accepted.shallow {node : NodeEntry} (accepted : node.Accepted) : node.Shallow where
  appearance appearance isDrawn := (accepted.appearance appearance isDrawn).others.shallow
  fields := accepted.fields.shallow

end NodeEntry

/-! ### Edges -/

theorem lt_of_readPlace {source : Source} {place : Nat} (isRead : readPlace source = .ok place) :
    place < twoTo 64 := by
  rw [readPlace] at isRead
  split at isRead
  · cases isRead
  · next value isNumber =>
    split at isRead
    · next positive =>
      cases isRead
      rw [readNumber.eq_def] at isNumber
      split at isNumber
      · split at isNumber
        · next number isValue =>
          cases isNumber
          obtain ⟨-, small⟩ := inRange_of_value? isValue
          omega
        · cases isNumber
      · cases isNumber
    · cases isRead
  · cases isRead

/-- Only null is read as null. -/
theorem Source.eq_null_of_value {source : Source} {room : Nat}
    (isRead : source.value room = .ok .null) : source = .null := by
  cases source with
  | null => rfl
  | bool value => cases isRead
  | number numeral =>
    rw [Source.value] at isRead
    split at isRead
    · next number _ => cases number <;> cases isRead
    · cases isRead
  | string pieces =>
    obtain ⟨text, -, isRead⟩ := map_eq_ok.1 isRead
    cases isRead
  | array items ending =>
    rw [Source.value] at isRead
    split at isRead
    · cases isRead
    · obtain ⟨values, -, isRead⟩ := bind_eq_ok.1 isRead
      obtain ⟨_, -, isRead⟩ := bind_eq_ok.1 isRead
      cases isRead
  | object members ending =>
    rw [Source.value] at isRead
    split at isRead
    · cases isRead
    · obtain ⟨values, -, isRead⟩ := bind_eq_ok.1 isRead
      obtain ⟨_, -, isRead⟩ := bind_eq_ok.1 isRead
      cases isRead
  | missing flaw => cases isRead

/-- A value that an edge carries along as it is read. -/
structure Json.Carried (value : Json) : Prop where
  given : value ≠ .null
  sound : value.Sound (depthLimit - edgeDepth)

theorem Json.Carried.portable {value : Json} (carried : value.Carried) : value.Portable :=
  ⟨carried.given, carried.sound.valid⟩

theorem Json.carried_of_read {source : Source} {value : Json}
    (isRead : readCarried source = .ok (some value)) : value.Carried := by
  obtain ⟨given, isValue⟩ := eq_ok_of_readOptional isRead
  refine ⟨?_, sound_of_value source isValue⟩
  rintro rfl
  exact given (Source.eq_null_of_value isValue)

namespace EdgeDraft

/-- An edge as far as it is read. -/
structure Accepted (draft : EdgeDraft) : Prop where
  source : ∀ place ∈ draft.source, place < twoTo 64
  target : ∀ place ∈ draft.target, place < twoTo 64
  data : ∀ value ∈ draft.data.join, value.Carried
  extra : ∀ value ∈ draft.extra.join, value.Carried

theorem accepted_empty : ({} : EdgeDraft).Accepted where
  source _ isSome := by cases isSome
  target _ isSome := by cases isSome
  data _ isSome := by cases isSome
  extra _ isSome := by cases isSome

theorem Accepted.read {draft next : EdgeDraft} {key : String} {source : Source}
    (accepted : draft.Accepted) (isNext : draft.read key source = .ok next) : next.Accepted := by
  rw [EdgeDraft.read.eq_def] at isNext
  split at isNext
  case h_2 =>
    obtain ⟨place, isPlace, rfl⟩ := readOnce_map_eq_ok isNext
    exact { accepted with
      source := fun _ isSome => Option.some.inj isSome ▸ lt_of_readPlace isPlace }
  case h_3 =>
    obtain ⟨place, isPlace, rfl⟩ := readOnce_map_eq_ok isNext
    exact { accepted with
      target := fun _ isSome => Option.some.inj isSome ▸ lt_of_readPlace isPlace }
  case h_7 =>
    obtain ⟨carried?, isCarried, rfl⟩ := readOnce_map_eq_ok isNext
    refine { accepted with data := fun value isSome => ?_ }
    rw [show carried? = some value from isSome] at isCarried
    exact Json.carried_of_read isCarried
  case h_8 =>
    obtain ⟨carried?, isCarried, rfl⟩ := readOnce_map_eq_ok isNext
    refine { accepted with extra := fun value isSome => ?_ }
    rw [show carried? = some value from isSome] at isCarried
    exact Json.carried_of_read isCarried
  case h_9 =>
    obtain ⟨_, -, rfl⟩ := map_eq_ok.1 isNext
    exact accepted
  all_goals
    obtain ⟨_, -, rfl⟩ := readOnce_map_eq_ok isNext
    exact { accepted with }

theorem Accepted.readItems {ending : Option Flaw} {keys : List String} {items : List Source}
    {draft result : EdgeDraft} (accepted : draft.Accepted)
    (isRead : draft.readItems ending keys items = .ok result) : result.Accepted := by
  induction keys generalizing draft items with
  | nil =>
    cases items with
    | nil =>
      obtain ⟨_, -, rfl⟩ := map_eq_ok.1 isRead
      exact accepted
    | cons item items => cases isRead
  | cons key keys inductionHypothesis =>
    cases items with
    | nil =>
      cases ending with
      | none =>
        cases isRead
        exact accepted
      | some flaw => cases isRead
    | cons item items =>
      obtain ⟨next, isNext, isRead⟩ := bind_eq_ok.1 isRead
      exact inductionHypothesis (accepted.read isNext) isRead

end EdgeDraft

namespace EdgeEntry

/-- An edge as it is read. -/
structure Accepted (edge : EdgeEntry) : Prop where
  placed : edge.Placed
  data : ∀ value ∈ edge.data, value.Carried
  extra : ∀ value ∈ edge.extra, value.Carried

theorem accepted_of_draft {draft : EdgeDraft} {edge : EdgeEntry} (accepted : draft.Accepted)
    (isEdge : draft.edge = .ok edge) : edge.Accepted := by
  have eq_of_required {Value : Type} {value? : Option Value} {value : Value}
      (isValue : required value? = .ok value) : value? = some value := by
    cases value? <;> cases isValue
    rfl
  obtain ⟨source, isSource, isEdge⟩ := bind_eq_ok.1 isEdge
  obtain ⟨target, isTarget, isEdge⟩ := bind_eq_ok.1 isEdge
  obtain ⟨sourceSlot, -, isEdge⟩ := bind_eq_ok.1 isEdge
  obtain ⟨targetSlot, -, isEdge⟩ := bind_eq_ok.1 isEdge
  cases isEdge
  exact ⟨⟨accepted.source _ (eq_of_required isSource), accepted.target _ (eq_of_required isTarget)⟩,
    accepted.data, accepted.extra⟩

theorem accepted_of_read {source : Source} {edge : EdgeEntry} (isRead : read source = .ok edge) :
    edge.Accepted := by
  rw [read.eq_def] at isRead
  split at isRead
  · obtain ⟨draft, isDraft, isEdge⟩ := bind_eq_ok.1 isRead
    exact accepted_of_draft (EdgeDraft.accepted_empty.readItems isDraft) isEdge
  · obtain ⟨draft, isDraft, isEdge⟩ := bind_eq_ok.1 isRead
    exact accepted_of_draft (readObject_induction EdgeDraft.Accepted
      (fun _ _ _ _ accepted isNext => accepted.read isNext) EdgeDraft.accepted_empty isDraft) isEdge

theorem Accepted.valid {edge : EdgeEntry} (accepted : edge.Accepted) : edge.Valid where
  data value isValue := (accepted.data value isValue).portable
  extra value isValue := (accepted.extra value isValue).portable

theorem Accepted.shallow {edge : EdgeEntry} (accepted : edge.Accepted) : edge.Shallow where
  data value isValue := (accepted.data value isValue).sound.fits
  extra value isValue := (accepted.extra value isValue).sound.fits

end EdgeEntry

/-! ### Documents -/

/-- A document as far as it is read. -/
structure DocumentDraft.Accepted (draft : DocumentDraft) : Prop where
  nodes : ∀ node ∈ draft.nodes.getD [], node.Accepted
  edges : ∀ edge ∈ draft.edges.getD [], edge.Accepted
  metadata : AcceptedEntries documentMembers (depthLimit - 1) draft.metadata

theorem DocumentDraft.Accepted.read {draft next : DocumentDraft} {key : String} {source : Source}
    (accepted : draft.Accepted) (isNext : draft.read key source = .ok next) : next.Accepted := by
  rw [DocumentDraft.read.eq_def] at isNext
  split at isNext
  · obtain ⟨_, -, rfl⟩ := readOnce_map_eq_ok isNext
    exact { accepted with }
  · obtain ⟨nodes, areNodes, rfl⟩ := readOnce_map_eq_ok isNext
    exact { accepted with
      nodes := forall_of_readArray _ (fun _ _ => NodeEntry.accepted_of_read) areNodes }
  · obtain ⟨edges, areEdges, rfl⟩ := readOnce_map_eq_ok isNext
    exact { accepted with
      edges := forall_of_readArray _ (fun _ _ => EdgeEntry.accepted_of_read) areEdges }
  · obtain ⟨value, isValue, rfl⟩ := map_eq_ok.1 isNext
    have unknown : key ∉ documentMembers := by simp_all [documentMembers]
    exact { accepted with metadata := accepted.metadata.append unknown isValue }

namespace Document

/-- A document as it is read. -/
structure Accepted (document : Document) : Prop where
  nodes : ∀ node ∈ document.nodes, node.Accepted
  edges : ∀ edge ∈ document.edges, edge.Accepted
  metadata : document.metadata.Accepted documentMembers (depthLimit - 1)

theorem accepted_of_ofSource {source : Source} {document : Document}
    (isRead : ofSource source = .ok document) : document.Accepted := by
  obtain ⟨draft, isDraft, isRead⟩ := bind_eq_ok.1 isRead
  cases isRead
  obtain ⟨nodes, edges, metadata⟩ := readObject_induction DocumentDraft.Accepted
    (fun _ _ _ _ accepted isNext => accepted.read isNext)
    ⟨List.forall_mem_nil _, List.forall_mem_nil _, .nil⟩ isDraft
  exact ⟨nodes, edges, Object.Accepted.ofList metadata⟩

theorem accepted_of_parse {text : String} {document : Document}
    (isRead : parse text = .ok document) : document.Accepted := by
  obtain ⟨found, isFound, isRead⟩ := bind_eq_ok.1 isRead
  split at isRead
  · cases isRead
  · cases isRead
    exact accepted_of_ofSource isFound

theorem Accepted.valid {document : Document} (accepted : document.Accepted) : document.Valid where
  nodes node member := (accepted.nodes node member).valid
  edges edge member := (accepted.edges edge member).valid
  metadata := accepted.metadata.beside

theorem Accepted.shallow {document : Document} (accepted : document.Accepted) :
    document.Shallow where
  nodes node member := (accepted.nodes node member).shallow
  edges edge member := (accepted.edges edge member).shallow
  metadata := accepted.metadata.shallow

end Document

end Workflow
