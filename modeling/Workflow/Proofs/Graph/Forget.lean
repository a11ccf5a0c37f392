/-
This file takes links away from a graph.

Every slot forgets the links, wherever it is; a node loses nothing else, and the
links that are left end at the names at which they ended before.
-/

import Workflow.Proofs.Graph.Run
import Workflow.Proofs.Graph.SlotEdits

namespace Workflow

namespace Node

/-- The node whose slots do not refer to some links. -/
def forget (links : List LinkId) (node : Node) : Node :=
  { node with
    inputs := node.inputs.map fun slot => { slot with link := slot.link.filter (· ∉ links) }
    outputs := node.outputs.map fun slot => { slot with links := slot.links.filter (· ∉ links) } }

theorem unlinked_forget (links : List LinkId) (node : Node) :
    (node.forget links).unlinked = node.unlinked := by
  rw [unlinked, forget]
  simp only [List.map_map]
  rfl

theorem slots_forget (links : List LinkId) (node : Node) (direction : Direction) :
    (node.forget links).slots direction = node.slots direction := by
  rw [← slots_unlinked, unlinked_forget, slots_unlinked]

theorem byNames_forget (links : List LinkId) (node : Node) :
    (node.forget links).byNames = node.byNames.forget links := by
  have slots : (node.forget links).namedSlots = fun direction =>
      (node.namedSlots direction).map (NamedSlot.forget links) := by
    funext direction
    cases direction with
    | input =>
      show (node.inputs.map _).map _ = (node.inputs.map _).map _
      rw [List.map_map, List.map_map]
      refine List.map_congr_left fun slot _ => congrArg (NamedSlot.mk slot.info · slot.native) ?_
      show (slot.link.filter (· ∉ links)).toList = slot.link.toList.filter (· ∉ links)
      cases slot.link with
      | none => rfl
      | some link => by_cases listed : link ∈ links <;> simp [listed]
    | output =>
      show (node.outputs.map _).map _ = (node.outputs.map _).map _
      rw [List.map_map, List.map_map]
      rfl
  have keys : (node.forget links).keysByField = node.keysByField := by
    funext direction
    have places : (node.forget links).multiSlots direction = node.multiSlots direction := by
      cases direction <;> rfl
    simp only [keysByField, keyAt?, slots_forget, places]
  rw [byNames, slots, keys]
  rfl

theorem nativeInputs_forget (links : List LinkId) (node : Node) :
    (node.forget links).nativeInputs = node.nativeInputs := by
  rw [nativeInputs, nativeInputs, forget, List.zipIdx_map, List.filterMap_map]
  rfl

theorem nativesWithout_forget (links : List LinkId) (node : Node) (place : Nat)
    (direction : Direction) :
    (node.forget links).nativesWithout place direction = node.nativesWithout place direction := by
  cases direction <;> simp only [nativesWithout, nativeInputs_forget]

theorem forget_nil (node : Node) : node.forget [] = node := by
  have kept (link : Option LinkId) : link.filter (fun _ => true) = link := by cases link <;> rfl
  simp [forget, kept]

theorem forget_forget (first second : List LinkId) (node : Node) :
    (node.forget first).forget second = node.forget (first ++ second) := by
  simp [forget, Function.comp_def, Option.filter_filter, Bool.and_comm]

end Node

namespace Graph

variable {graph after : Graph} {id : NodeId} {field key : String}

/-- A slot that refers to a link is where the link ends. -/
theorem Tied.endAt_of_mem (tied : graph.Tied) {link : Link} (isLink : link ∈ graph.links)
    {node : Node} (isNode : node ∈ graph.nodes) {direction : Direction} {spot : Nat} {port : Port}
    (isPort : (node.ports direction)[spot]? = some port) (refers : link.id ∈ port.links) :
    link.endAt direction = (node.id, spot) := by
  obtain ⟨stored, isStored, same, atEnd⟩ := tied.exists_link isNode isPort refers
  rw [← tied.link_eq_of_id isStored isLink same]
  exact atEnd

/-- Taking a link away makes all slots forget it. -/
theorem nodes_dropLink (tied : graph.Tied) {link : Link} (isLink : link ∈ graph.links) :
    (graph.dropLink link).nodes = graph.nodes.map (Node.forget [link.id]) := by
  show ((graph.nodes.map _).map _) = _
  rw [List.map_map]
  refine List.map_congr_left fun node isNode => ?_
  have outputs : (if node.id = link.origin then node.outputs.modify link.originSlot fun slot =>
      { slot with links := slot.links.filter (· ≠ link.id) } else node.outputs) =
        (node.forget [link.id]).outputs := by
    have forgets : (node.forget [link.id]).outputs = node.outputs.map fun slot =>
        { slot with links := slot.links.filter (· ≠ link.id) } := by
      simp [Node.forget]
    rw [forgets]
    refine modify_eq_map_of_keeps fun spot slot isSlot apart => ?_
    have isPort := Node.getElem?_ports_output isSlot
    rw [List.filter_eq_self.2 fun other member => decide_eq_true ?_]
    rintro rfl
    have atEnd := tied.endAt_of_mem isLink isNode isPort member
    exact apart ⟨(congrArg Prod.fst atEnd).symm, congrArg Prod.snd atEnd⟩
  have inputs : (if node.id = link.target then node.inputs.modify link.targetSlot fun slot =>
      { slot with link := if slot.link = some link.id then none else slot.link }
        else node.inputs) = (node.forget [link.id]).inputs := by
    have forgets : (node.forget [link.id]).inputs = node.inputs.map fun slot =>
        { slot with link := if slot.link = some link.id then none else slot.link } := by
      refine List.map_congr_left fun slot _ =>
        congrArg (fun link => { slot with link := link }) ?_
      cases slot.link with
      | none => rfl
      | some other => by_cases same : other = link.id <;> simp [same]
    rw [forgets]
    refine modify_eq_map_of_keeps fun spot slot isSlot apart => ?_
    have isPort := Node.getElem?_ports_input isSlot
    rw [if_neg]
    intro refers
    have atEnd := tied.endAt_of_mem isLink isNode isPort (by simp [InputSlot.port, refers])
    exact apart ⟨(congrArg Prod.fst atEnd).symm, congrArg Prod.snd atEnd⟩
  have same : node.forget [link.id] = { node with
    inputs := (node.forget [link.id]).inputs
    outputs := (node.forget [link.id]).outputs } := rfl
  rw [Function.comp_apply, same, ← inputs, ← outputs]
  by_cases atOrigin : node.id = link.origin
  · simp only [if_pos atOrigin]
    split <;> rfl
  · simp only [if_neg atOrigin]
    split <;> rfl

/-- Links of a graph are taken away one after the other, each of them there when it is. -/
theorem dropLinks_induction {motive : Graph → List Link → Prop} (nil : ∀ graph, motive graph [])
    (cons : ∀ (graph : Graph) (link : Link) (rest : List Link), graph.Tied → link ∈ graph.links →
      motive (graph.dropLink link) rest → motive graph (link :: rest))
    (tied : graph.Tied) {links : List Link} (areLinks : ∀ link ∈ links, link ∈ graph.links)
    (distinct : links.Pairwise fun first second => first.id ≠ second.id) : motive graph links := by
  induction links generalizing graph with
  | nil => exact nil graph
  | cons link rest inductionHypothesis =>
    obtain ⟨apart, distinctRest⟩ := List.pairwise_cons.1 distinct
    have isLink := areLinks link List.mem_cons_self
    have tiedRest : (graph.dropLink link).Tied :=
      tied.dropLink fun other isOther same => tied.link_eq_of_id isOther isLink same
    refine cons graph link rest tied isLink (inductionHypothesis tiedRest ?_ distinctRest)
    intro other member
    refine List.mem_filter.2 ⟨areLinks other (List.mem_cons_of_mem link member), ?_⟩
    exact decide_eq_true (apart other member).symm

theorem nodes_dropLinks (tied : graph.Tied) {links : List Link}
    (areLinks : ∀ link ∈ links, link ∈ graph.links)
    (distinct : links.Pairwise fun first second => first.id ≠ second.id) :
    (links.foldl dropLink graph).nodes = graph.nodes.map (Node.forget (links.map Link.id)) := by
  refine dropLinks_induction (motive := fun graph links => (links.foldl dropLink graph).nodes =
    graph.nodes.map (Node.forget (links.map Link.id))) (fun graph => ?_)
    (fun graph link rest tied isLink forgets => ?_) tied areLinks distinct
  · exact ((List.map_congr_left fun node _ => node.forget_nil).trans (List.map_id' _)).symm
  · rw [List.foldl_cons, forgets, nodes_dropLink tied isLink, List.map_map]
    exact List.map_congr_left fun node _ => node.forget_forget _ _

/-- Taking away the links that some test accepts makes all slots forget them. -/
theorem nodes_dropAccepted (tied : graph.Tied) (accepts : Link → Bool) :
    ((graph.links.filter accepts).foldl dropLink graph).nodes =
      graph.nodes.map (Node.forget ((graph.links.filter accepts).map Link.id)) := by
  refine nodes_dropLinks tied (fun link member => List.mem_of_mem_filter member) ?_
  refine (tied.linksAscend.filter accepts).imp fun less same => ?_
  rw [same] at less
  exact Nat.lt_irrefl _ less

theorem node?_dropAccepted (tied : graph.Tied) (accepts : Link → Bool) (id : NodeId) :
    ((graph.links.filter accepts).foldl dropLink graph).node? id =
      (graph.node? id).map (Node.forget ((graph.links.filter accepts).map Link.id)) := by
  rw [node?, nodes_dropAccepted tied]
  exact node?_mapNodes graph (Node.forget _) (fun _ => rfl) id

theorem links_dropAccepted (tied : graph.Tied) (accepts : Link → Bool) :
    ((graph.links.filter accepts).foldl dropLink graph).links =
      graph.links.filter fun link => !accepts link := by
  rw [links_dropLinks]
  refine List.filter_congr fun link isLink => ?_
  rw [Bool.eq_iff_iff, decide_eq_true_eq, Bool.not_eq_true', Bool.eq_false_iff]
  refine not_congr ⟨fun listed => ?_, fun accepted => ?_⟩
  · obtain ⟨other, isOther, same⟩ := List.mem_map.1 listed
    obtain ⟨inLinks, accepted⟩ := List.mem_filter.1 isOther
    rw [← tied.link_eq_of_id inLinks isLink same]
    exact accepted
  · exact List.mem_map_of_mem (List.mem_filter.2 ⟨isLink, accepted⟩)

/-- A key removed from a node, and the links of its slot from all nodes. -/
theorem nodes_removeSlot (tied : graph.Tied) (id : NodeId) (direction : Direction) (place : Nat)
    (field key : String) :
    ((((graph.links.filter (endsAt id direction place)).foldl dropLink graph).removeSlot
      id direction place).modifyNode id fun node => node.dropKeyedValue field key).nodes =
        graph.nodes.map fun other =>
          let freed := other.forget ((graph.links.filter (endsAt id direction place)).map Link.id)
          if other.id = id then (freed.eraseSlot direction place).dropKeyedValue field key
          else freed := by
  show (List.map _ (((graph.links.filter (endsAt id direction place)).foldl dropLink
    graph).nodes)).map _ = _
  rw [nodes_dropAccepted tied, List.map_map, List.map_map]
  refine List.map_congr_left fun other _ => ?_
  simp only [Function.comp_apply]
  generalize (graph.links.filter (endsAt id direction place)).map Link.id = links
  by_cases same : other.id = id
  · have erased : ((other.forget links).eraseSlot direction place).id = id := by
      cases direction <;> exact same
    rw [if_pos (show (other.forget links).id = id from same), if_pos erased, if_pos same]
  · rw [if_neg (show ¬(other.forget links).id = id from same),
      if_neg (show ¬(other.forget links).id = id from same), if_neg same]

/-- A key removed from a node takes the native value of its slot along, and nothing from others. -/
theorem nativeInputs_removeSlot (tied : graph.Tied) (id : NodeId) (direction : Direction)
    (place : Nat) (field key : String) :
    ((((graph.links.filter (endsAt id direction place)).foldl dropLink graph).removeSlot
      id direction place).modifyNode id fun node => node.dropKeyedValue field key).nodes.map
        Node.nativeInputs = graph.nodes.map fun node =>
          if node.id = id then node.nativesWithout place direction else node.nativeInputs := by
  rw [nodes_removeSlot tied, List.map_map]
  refine List.map_congr_left fun other _ => ?_
  rw [Function.comp_apply]
  dsimp only
  generalize (graph.links.filter (endsAt id direction place)).map Link.id = links
  rw [← other.nativesWithout_forget links, ← Node.nativeInputs_eraseSlot,
    ← other.nativeInputs_forget links]
  split <;> rfl

/-- The links that are left after a key is removed end at the same names as before. -/
theorem nameAt?_removeSlot (tied : graph.Tied) (id : NodeId) (direction : Direction) (place : Nat)
    (field key : String) (side : Direction) (spot : NodeId × Nat)
    (apart : side = direction → spot ≠ (id, place)) :
    ((((graph.links.filter (endsAt id direction place)).foldl dropLink graph).removeSlot
      id direction place).modifyNode id fun node => node.dropKeyedValue field key).nameAt? side
        (if side = direction ∧ spot.1 = id then (id, shiftDown place spot.2) else spot) =
      graph.nameAt? side spot := by
  obtain ⟨other, spot⟩ := spot
  rw [nameAt?, nameAt?, node?, nodes_removeSlot tied]
  have found := node?_mapNodes graph (fun other =>
    let freed := other.forget ((graph.links.filter (endsAt id direction place)).map Link.id)
    if other.id = id then (freed.eraseSlot direction place).dropKeyedValue field key else freed)
    (fun other => by
      dsimp only
      split
      · cases direction <;> rfl
      · rfl)
  have same : (if side = direction ∧ other = id then (id, shiftDown place spot)
      else (other, spot)).1 = other := by
    split
    · next here => exact here.2.symm
    · rfl
  refine congrArg (Option.map SlotInfo.name) ?_
  dsimp only
  rw [same]
  refine (congrArg (Option.bind · _) (found other)).trans ?_
  cases isOther : graph.node? other with
  | none => rfl
  | some node =>
    obtain ⟨-, rfl⟩ := mem_of_node? isOther
    rw [Option.map_some, Option.bind_some, Option.bind_some]
    dsimp only
    by_cases here : node.id = id
    · rw [if_pos here]
      show ((Node.eraseSlot _ direction place).slots side)[_]? = _
      rw [Node.slots_eraseSlot, Node.slots_forget]
      by_cases sameSide : side = direction
      · rw [if_pos sameSide, if_pos ⟨sameSide, here⟩, List.getElem?_eraseIdx]
        have different : spot ≠ place := fun atPlace => apart sameSide (by rw [here, atPlace])
        rw [shiftDown]
        dsimp only
        by_cases behind : place < spot
        · rw [if_pos behind, if_neg (by omega), Nat.sub_add_cancel (by omega)]
        · rw [if_neg behind, if_pos (by omega)]
      · rw [if_neg sameSide, if_neg fun both => sameSide both.1]
    · rw [if_neg here, if_neg fun both => here both.2, Node.slots_forget]

end Graph

end Workflow
