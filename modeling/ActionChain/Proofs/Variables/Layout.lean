import ActionChain.Proofs.Numeric.Nearest
import ActionChain.Proofs.Variables.BreadthFirst
import ActionChain.Proofs.Variables.Equality

/-!
# What Importing Adds

The nodes that a JSON tree becomes, apart from the arena they are added to.

Importing pushes the nodes of a tree one by one, and takes the position of each from the
size that the arena has by then. All that it needs to know of the arena is how large it was,
so the new nodes can be listed for a size alone (`Arena.layOut`), and importing appends the
list (`Arena.importJson_eq`).

A list of nodes is a forest if each node refers to nodes before it, and every node is
referred to exactly once: by a later one, or from outside the list. Trees that are laid out
side by side make a forest, and a parent behind a forest that takes hold of all its loose ends
makes one with a single loose end, which is the parent itself.

The list depends on the size in no other way than that all references move along, and
it depends on the numbers of the tree only by what a variable keeps of them. So the tree that
comes out again is laid out like the one that went in.

## Main definitions

* `Json.containers`: the arrays and objects of a tree.
* `Node.refs`, `Graph.references`: what nodes and a whole graph refer to.
* `Arena.layOut`: the nodes of a tree, and the value that stands for it.
* `Arena.Forest`: nodes that refer backwards, and are referred to once.

## Theorems

* `Arena.importJson_eq`: importing appends the nodes of the tree.
* `Arena.forest_layOut`: the nodes of a tree are a forest.
* `Arena.layOut_add`: in a larger arena the nodes are the same, further on.
* `Arena.layOut_stored`: what comes out is laid out like what went in.
* `Arena.trees_importJson`: a node for every array and object, in order.
* `Graph.count_references_importJson`: who refers to what afterwards.
* `Graph.importJson_copies`: importing makes an exact copy and changes nothing else.
-/

namespace ActionChain

open Relation (TransGen)

namespace Json

mutual

/-- The arrays and objects of a tree, each behind those inside it. -/
def containers : Json → List Json
  | .array items => itemContainers items ++ [.array items]
  | .object members => memberContainers members ++ [.object members]
  | _ => []

/-- The arrays and objects of all items. -/
def itemContainers : List Json → List Json
  | [] => []
  | item :: rest => containers item ++ itemContainers rest

/-- The arrays and objects of the values of all members. -/
def memberContainers : List (String × Json) → List Json
  | [] => []
  | (_, json) :: rest => containers json ++ memberContainers rest

end

end Json

theorem Value.filterMap_ref?_cons (v : Value) (vs : List Value) :
    (v :: vs).filterMap ref? = v.ref?.toList ++ vs.filterMap ref? := by
  cases v <;> rfl

namespace Node

/-- The positions that a node refers to. -/
def refs (node : Node) : List Nat := node.children.filterMap Value.ref?

theorem refs_object {fields : List (String × Value)} (h : Entries.Ascending fields) :
    (object (Dict.ofList fields)).refs = (fields.map Prod.snd).filterMap Value.ref? :=
  congrArg (fun es => (es.map Prod.snd).filterMap Value.ref?) (Entries.ofList_of_ascending h)

theorem map_object {fields : List (String × Value)} (h : Entries.Ascending fields)
    (f : Value → Value) : (object (Dict.ofList fields)).map f =
      object (Dict.ofList (fields.map fun e => (e.1, f e.2))) := by
  have himage : Entries.Ascending (fields.map fun e => (e.1, f e.2)) := List.pairwise_map.2 h
  refine congrArg object (Dict.ext_entries ?_)
  calc (Entries.ofList fields).map (fun e => (e.1, f e.2))
      = fields.map fun e => (e.1, f e.2) := by rw [Entries.ofList_of_ascending h]
    _ = Entries.ofList (fields.map fun e => (e.1, f e.2)) :=
        (Entries.ofList_of_ascending himage).symm

end Node

namespace Arena

/-! ## The nodes of a tree -/

mutual

/-- The nodes that a tree adds to an arena of a size, and the value that stands for it. -/
def layOut (size : Nat) : Json → List Node × Value
  | .null => ([], .null)
  | .bool b => ([], .bool b)
  | .number n => ([], .ofNumber n)
  | .string s => ([], .text s)
  | .array items =>
    let (nodes, values) := layOutItems size items
    (nodes ++ [.list values], .ref (size + nodes.length))
  | .object members =>
    let (nodes, fields) := layOutMembers size members
    (nodes ++ [.object (Dict.ofList fields)], .ref (size + nodes.length))

/-- `layOut` item by item. -/
def layOutItems (size : Nat) : List Json → List Node × List Value
  | [] => ([], [])
  | item :: rest =>
    let (nodes, value) := layOut size item
    let (others, values) := layOutItems (size + nodes.length) rest
    (nodes ++ others, value :: values)

/-- `layOut` member by member. -/
def layOutMembers (size : Nat) : List (String × Json) → List Node × List (String × Value)
  | [] => ([], [])
  | (key, json) :: rest =>
    let (nodes, value) := layOut size json
    let (others, fields) := layOutMembers (size + nodes.length) rest
    (nodes ++ others, (key, value) :: fields)

end

mutual

/-- Importing appends the nodes of the tree. -/
theorem importJson_eq : ∀ (j : Json) (nodes : Array Node), importJson nodes j =
    (nodes ++ (layOut nodes.size j).1.toArray, (layOut nodes.size j).2)
  | .null, nodes => by simp [importJson, layOut]
  | .bool _, nodes => by simp [importJson, layOut]
  | .number _, nodes => by simp [importJson, layOut]
  | .string _, nodes => by simp [importJson, layOut]
  | .array items, nodes => by
      simp [importJson, layOut, importItems_eq items nodes]
  | .object members, nodes => by
      simp [importJson, layOut, importMembers_eq members nodes]

theorem importItems_eq : ∀ (items : List Json) (nodes : Array Node), importItems nodes items =
    (nodes ++ (layOutItems nodes.size items).1.toArray, (layOutItems nodes.size items).2)
  | [], nodes => by simp [importItems, layOutItems]
  | item :: rest, nodes => by
      simp [importItems, layOutItems, importJson_eq item nodes, importItems_eq rest]

theorem importMembers_eq : ∀ (members : List (String × Json)) (nodes : Array Node),
    importMembers nodes members =
      (nodes ++ (layOutMembers nodes.size members).1.toArray, (layOutMembers nodes.size members).2)
  | [], nodes => by simp [importMembers, layOutMembers]
  | (key, json) :: rest, nodes => by
      simp [importMembers, layOutMembers, importJson_eq json nodes, importMembers_eq rest]

end

mutual

/-- There is a node for every array and every object. -/
theorem length_layOut : ∀ (j : Json) (size : Nat), (layOut size j).1.length = j.containers.length
  | .null, _ => by simp [layOut, Json.containers]
  | .bool _, _ => by simp [layOut, Json.containers]
  | .number _, _ => by simp [layOut, Json.containers]
  | .string _, _ => by simp [layOut, Json.containers]
  | .array items, size => by simp [layOut, Json.containers, length_layOutItems items size]
  | .object members, size => by simp [layOut, Json.containers, length_layOutMembers members size]

theorem length_layOutItems : ∀ (items : List Json) (size : Nat),
    (layOutItems size items).1.length = (Json.itemContainers items).length
  | [], _ => rfl
  | item :: rest, size => by
      simp [layOutItems, Json.itemContainers, length_layOut item, length_layOutItems rest]

theorem length_layOutMembers : ∀ (members : List (String × Json)) (size : Nat),
    (layOutMembers size members).1.length = (Json.memberContainers members).length
  | [], _ => rfl
  | (_, json) :: rest, size => by
      simp [layOutMembers, Json.memberContainers, length_layOut json, length_layOutMembers rest]

end

theorem keys_layOutMembers (members : List (String × Json)) (size : Nat) :
    (layOutMembers size members).2.map Prod.fst = members.map Prod.fst := by
  induction members generalizing size with
  | nil => rfl
  | cons head rest ih => exact congrArg (head.1 :: ·) (ih _)

theorem ascending_layOutMembers {members : List (String × Json)} (h : Entries.Ascending members)
    (size : Nat) : Entries.Ascending (layOutMembers size members).2 := by
  rwa [Json.ascending_iff_keys, keys_layOutMembers, ← Json.ascending_iff_keys]

/-! ## Forests -/

/-- Nodes from a position on, with the positions that something outside refers to. A node
refers to nodes before it, and every node is referred to exactly once. -/
structure Forest (size : Nat) (nodes : List Node) (loose : List Nat) : Prop where
  backward : ∀ (k : Nat) (node : Node), nodes[k]? = some node →
    ∀ id ∈ node.refs, size ≤ id ∧ id < size + k
  once : (nodes.flatMap Node.refs ++ loose).Perm (List.range' size nodes.length)

namespace Forest

variable {size : Nat} {nodes others : List Node} {loose loose' : List Nat}

theorem nil (size : Nat) : Forest size [] [] :=
  ⟨fun k node hnode => by simp at hnode, .refl _⟩

/-- Side by side, forests are a forest. -/
theorem append (h : Forest size nodes loose) (h' : Forest (size + nodes.length) others loose') :
    Forest size (nodes ++ others) (loose ++ loose') := by
  refine ⟨fun k node hnode id hid => ?_, ?_⟩
  · rcases Nat.lt_or_ge k nodes.length with hk | hk
    · rw [List.getElem?_append_left hk] at hnode
      exact h.backward k node hnode id hid
    · rw [List.getElem?_append_right hk] at hnode
      have hbounds := h'.backward _ node hnode id hid
      omega
  · rw [List.flatMap_append, List.length_append, ← List.range'_append_1]
    refine .trans ?_ (h.once.append h'.once)
    simp only [List.append_assoc]
    refine List.Perm.append_left _ ?_
    rw [← List.append_assoc, ← List.append_assoc]
    exact List.perm_append_comm.append_right _

/-- A parent behind a forest takes hold of its loose ends. -/
theorem concat {node : Node} (h : Forest size nodes node.refs) :
    Forest size (nodes ++ [node]) [size + nodes.length] := by
  refine ⟨fun k parent hparent id hid => ?_, ?_⟩
  · rcases Nat.lt_or_ge k nodes.length with hk | hk
    · rw [List.getElem?_append_left hk] at hparent
      exact h.backward k parent hparent id hid
    · rw [List.getElem?_append_right hk] at hparent
      have hlast := List.mem_of_getElem? hparent
      rw [List.mem_singleton] at hlast
      subst hlast
      have hmem := h.once.mem_iff.1 (List.mem_append_right _ hid)
      rw [List.mem_range'_1] at hmem
      omega
  · rw [List.flatMap_append, List.flatMap_singleton, List.length_append, List.length_singleton,
      List.range'_1_concat]
    exact h.once.append_right _

end Forest

mutual

/-- The nodes of a tree are a forest, and the value that stands for the tree is its
only loose end. -/
theorem forest_layOut : ∀ (j : Json) (size : Nat), j.Ordered →
    Forest size (layOut size j).1 (layOut size j).2.ref?.toList
  | .null, size, _ => by simpa [layOut, Value.ref?] using Forest.nil size
  | .bool _, size, _ => by simpa [layOut, Value.ref?] using Forest.nil size
  | .number _, size, _ => by simpa [layOut, Value.ref?, Value.ofNumber] using Forest.nil size
  | .string _, size, _ => by simpa [layOut, Value.ref?] using Forest.nil size
  | .array items, size, hj => by
      simp only [layOut]
      exact (forest_layOutItems items size hj).concat
  | .object members, size, hj => by
      have hforest := forest_layOutMembers members size hj.2
      rw [← Node.refs_object (ascending_layOutMembers hj.1 size)] at hforest
      simp only [layOut]
      exact hforest.concat

theorem forest_layOutItems : ∀ (items : List Json) (size : Nat), Json.OrderedItems items →
    Forest size (layOutItems size items).1 ((layOutItems size items).2.filterMap Value.ref?)
  | [], size, _ => .nil size
  | item :: rest, size, hitems => by
      simp only [layOutItems, Value.filterMap_ref?_cons]
      exact (forest_layOut item size hitems.1).append (forest_layOutItems rest _ hitems.2)

theorem forest_layOutMembers : ∀ (members : List (String × Json)) (size : Nat),
    Json.OrderedMembers members → Forest size (layOutMembers size members).1
      (((layOutMembers size members).2.map Prod.snd).filterMap Value.ref?)
  | [], size, _ => .nil size
  | (_, json) :: rest, size, hmembers => by
      simp only [layOutMembers, List.map_cons, Value.filterMap_ref?_cons]
      exact (forest_layOut json size hmembers.1).append (forest_layOutMembers rest _ hmembers.2)

end

/-! ## Elsewhere, and again -/

mutual

/-- In a larger arena the nodes of a tree are the same, further on. -/
theorem layOut_add : ∀ (j : Json) (size d : Nat), j.Ordered → layOut (size + d) j =
    ((layOut size j).1.map (Node.map (Value.rename (· + d))),
      (layOut size j).2.rename (· + d))
  | .null, _, _, _ => by simp [layOut, Value.rename]
  | .bool _, _, _, _ => by simp [layOut, Value.rename]
  | .number _, _, _, _ => by simp [layOut, Value.rename, Value.ofNumber]
  | .string _, _, _, _ => by simp [layOut, Value.rename]
  | .array items, size, d, hj => by
      simp [layOut, layOutItems_add items size d hj, Value.rename, Node.map, Nat.add_right_comm]
  | .object members, size, d, hj => by
      have hparent := Node.map_object (ascending_layOutMembers hj.1 size)
        (Value.rename (· + d))
      simp [layOut, layOutMembers_add members size d hj.2, Value.rename, hparent,
        Nat.add_right_comm]

theorem layOutItems_add : ∀ (items : List Json) (size d : Nat), Json.OrderedItems items →
    layOutItems (size + d) items =
      ((layOutItems size items).1.map (Node.map (Value.rename (· + d))),
        (layOutItems size items).2.map (Value.rename (· + d)))
  | [], _, _, _ => rfl
  | item :: rest, size, d, hitems => by
      simp [layOutItems, layOut_add item size d hitems.1, Nat.add_right_comm size d,
        layOutItems_add rest _ d hitems.2]

theorem layOutMembers_add : ∀ (members : List (String × Json)) (size d : Nat),
    Json.OrderedMembers members → layOutMembers (size + d) members =
      ((layOutMembers size members).1.map (Node.map (Value.rename (· + d))),
        (layOutMembers size members).2.map fun e => (e.1, e.2.rename (· + d)))
  | [], _, _, _ => rfl
  | (_, json) :: rest, size, d, hmembers => by
      simp [layOutMembers, layOut_add json size d hmembers.1, Nat.add_right_comm size d,
        layOutMembers_add rest _ d hmembers.2]

end

mutual

/-- A tree is laid out like what is kept of it. -/
theorem layOut_stored : ∀ (j : Json) (size : Nat), layOut size j.stored = layOut size j
  | .null, _ => by simp
  | .bool _, _ => by simp
  | .number n, size => by
      rcases Json.stored_number n with ⟨x, hx, hstored⟩
      rw [hstored, layOut, layOut, Value.ofNumber, Value.ofNumber, hx]
      rfl
  | .string _, _ => by simp
  | .array items, size => by simp [layOut, layOutItems_stored items size]
  | .object members, size => by simp [layOut, layOutMembers_stored members size]

theorem layOutItems_stored : ∀ (items : List Json) (size : Nat),
    layOutItems size (Json.mapItems (fun n => Value.numberJson n.toBinary64) items) =
      layOutItems size items
  | [], _ => rfl
  | item :: rest, size => by
      have hitem := layOut_stored item size
      rw [Json.stored] at hitem
      simp [layOutItems, Json.mapItems, hitem, layOutItems_stored rest]

theorem layOutMembers_stored : ∀ (members : List (String × Json)) (size : Nat),
    layOutMembers size (Json.mapMembers (fun n => Value.numberJson n.toBinary64) members) =
      layOutMembers size members
  | [], _ => rfl
  | (_, json) :: rest, size => by
      have hjson := layOut_stored json size
      rw [Json.stored] at hjson
      simp [layOutMembers, Json.mapMembers, hjson, layOutMembers_stored rest]

end

theorem size_importItems (items : List Json) (nodes : Array Node) :
    (importItems nodes items).1.size = nodes.size + (Json.itemContainers items).length := by
  simp only [importItems_eq, Array.size_append, List.size_toArray, length_layOutItems]

theorem size_importMembers (members : List (String × Json)) (nodes : Array Node) :
    (importMembers nodes members).1.size = nodes.size + (Json.memberContainers members).length := by
  simp only [importMembers_eq, Array.size_append, List.size_toArray, length_layOutMembers]

theorem size_importJson (j : Json) (nodes : Array Node) :
    (importJson nodes j).1.size = nodes.size + j.containers.length := by
  simp only [importJson_eq, Array.size_append, List.size_toArray, length_layOut]

mutual

/-- The new nodes stand for the arrays and objects of the tree, in order. -/
theorem trees_importJson : ∀ (j : Json) {nodes ms : Array Node} {fuel : Nat}, j.Ordered →
    Grows (importJson nodes j).1 ms → ms.size ≤ fuel →
    (List.range' nodes.size j.containers.length).map (fun id => walk ms fuel [] (.ref id)) =
      j.containers.map Json.stored
  | .null, _, _, _, _, _, _ => by simp [Json.containers]
  | .bool _, _, _, _, _, _, _ => by simp [Json.containers]
  | .number _, _, _, _, _, _, _ => by simp [Json.containers]
  | .string _, _, _, _, _, _, _ => by simp [Json.containers]
  | .array items, nodes, ms, fuel, hj, hgrows, hfuel => by
      have hself : walk ms fuel [] (importJson nodes (.array items)).2 = (Json.array items).stored :=
        walk_importJson (.array items) hj hgrows (by simp)
          (Nat.le_add_right_of_le (hgrows.size_le.trans hfuel))
      have hbelow := trees_importItems items hj ((Grows.push _ _).trans hgrows) hfuel
      simp only [importJson, size_importItems] at hself
      rw [Json.containers, List.length_append, List.length_singleton, List.range'_1_concat,
        List.map_append, List.map_append, List.map_singleton, List.map_singleton, hbelow, hself]
  | .object members, nodes, ms, fuel, hj, hgrows, hfuel => by
      have hself : walk ms fuel [] (importJson nodes (.object members)).2 = (Json.object members).stored :=
        walk_importJson (.object members) hj hgrows (by simp)
          (Nat.le_add_right_of_le (hgrows.size_le.trans hfuel))
      have hbelow := trees_importMembers members hj.2 ((Grows.push _ _).trans hgrows) hfuel
      simp only [importJson, size_importMembers] at hself
      rw [Json.containers, List.length_append, List.length_singleton, List.range'_1_concat,
        List.map_append, List.map_append, List.map_singleton, List.map_singleton, hbelow, hself]

theorem trees_importItems : ∀ (items : List Json) {nodes ms : Array Node} {fuel : Nat},
    Json.OrderedItems items → Grows (importItems nodes items).1 ms → ms.size ≤ fuel →
    (List.range' nodes.size (Json.itemContainers items).length).map
        (fun id => walk ms fuel [] (.ref id)) =
      (Json.itemContainers items).map Json.stored
  | [], _, _, _, _, _, _ => rfl
  | item :: rest, nodes, ms, fuel, hitems, hgrows, hfuel => by
      have hrest := grows_importItems rest (importJson nodes item).1
      have hhead := trees_importJson item hitems.1 (hrest.trans hgrows) hfuel
      have htail := trees_importItems rest hitems.2 hgrows hfuel
      rw [size_importJson] at htail
      rw [Json.itemContainers, List.length_append, ← List.range'_append_1, List.map_append,
        List.map_append, hhead, htail]

theorem trees_importMembers : ∀ (members : List (String × Json)) {nodes ms : Array Node}
    {fuel : Nat}, Json.OrderedMembers members → Grows (importMembers nodes members).1 ms →
    ms.size ≤ fuel →
    (List.range' nodes.size (Json.memberContainers members).length).map
        (fun id => walk ms fuel [] (.ref id)) =
      (Json.memberContainers members).map Json.stored
  | [], _, _, _, _, _, _ => rfl
  | (_, json) :: rest, nodes, ms, fuel, hmembers, hgrows, hfuel => by
      have hrest := grows_importMembers rest (importJson nodes json).1
      have hhead := trees_importJson json hmembers.1 (hrest.trans hgrows) hfuel
      have htail := trees_importMembers rest hmembers.2 hgrows hfuel
      rw [size_importJson] at htail
      rw [Json.memberContainers, List.length_append, ← List.range'_append_1, List.map_append,
        List.map_append, hhead, htail]

end

end Arena

namespace Graph

/-- The positions that roots and nodes refer to. -/
def references (g : Graph) : List Nat := g.rootRefs ++ g.nodes.toList.flatMap Node.refs

variable {g : Graph} {j : Json}

/-- What a tree adds to a graph. -/
def added (g : Graph) (j : Json) : List Node := (Arena.layOut g.nodes.size j).1

theorem nodes_importJson (g : Graph) (j : Json) :
    (g.importJson j).1.nodes = g.nodes ++ (g.added j).toArray := by
  rw [importJson, Arena.importJson_eq]
  rfl

theorem value_importJson (g : Graph) (j : Json) :
    (g.importJson j).2 = (Arena.layOut g.nodes.size j).2 := by
  rw [importJson, Arena.importJson_eq]

theorem nodeCount_importJson (g : Graph) (j : Json) :
    (g.importJson j).1.nodes.size = g.nodes.size + (g.added j).length := by
  simp only [nodes_importJson, Array.size_append, List.size_toArray]

/-- All references inside. -/
theorem WellFormed.lt_of_mem_references (hg : g.WellFormed) {id : Nat}
    (hid : id ∈ g.references) : id < g.nodes.size := by
  rcases List.mem_append.1 hid with hid | hid
  · exact hg.roots _ (mem_rootRefs.1 hid)
  · rcases List.mem_flatMap.1 hid with ⟨node, hnode, hid⟩
    rcases List.mem_filterMap.1 hid with ⟨v, hv, hvid⟩
    exact hg.nodes node (Array.mem_def.2 hnode) _ (Value.ref?_eq_some.1 hvid ▸ hv)

/-- What a new node refers to is new, and stands before it. -/
theorem child_importJson (hj : j.Ordered) {a b : Nat} (hb : g.nodes.size ≤ b)
    (hab : (g.importJson j).1.Child (.ref a) (.ref b)) : g.nodes.size ≤ a ∧ a < b := by
  rcases hab with ⟨id, node, hid, hnode, hchild⟩
  cases hid
  rw [nodes_importJson, Array.getElem?_append_right hb, List.getElem?_toArray] at hnode
  have hmem : a ∈ node.refs := List.mem_filterMap.2 ⟨_, hchild, rfl⟩
  have hbounds := (Arena.forest_layOut j g.nodes.size hj).backward _ node hnode a hmem
  omega

/-- What lies anywhere below a new node is new, and stands before it. -/
theorem below_importJson (hj : j.Ordered) {a b : Nat} (hb : g.nodes.size ≤ b)
    (hab : TransGen (g.importJson j).1.Child (.ref a) (.ref b)) : g.nodes.size ≤ a ∧ a < b := by
  suffices hbelow : ∀ u, TransGen (g.importJson j).1.Child u (.ref b) →
      ∀ a, u = .ref a → g.nodes.size ≤ a ∧ a < b from hbelow _ hab a rfl
  intro u hu
  induction hu using TransGen.head_induction_on with
  | single hchild =>
      rintro a rfl
      exact child_importJson hj hb hchild
  | head hchild _ ih =>
      rintro a rfl
      -- Only nodes have children, so the way leads through nodes.
      rcases hchild with ⟨id, node, rfl, hnode, hmem⟩
      have hid := ih id rfl
      have ha := child_importJson hj hid.1 ⟨id, node, rfl, hnode, hmem⟩
      omega

/-- The new references are one to each of the new nodes, if the value that stands for the
tree counts as one. -/
theorem references_importJson (hj : j.Ordered) :
    ((g.importJson j).1.references ++ (g.importJson j).2.ref?.toList).Perm
      (g.references ++ List.range' g.nodes.size (g.added j).length) := by
  have honce := (Arena.forest_layOut j g.nodes.size hj).once
  have hroots : (g.importJson j).1.rootRefs = g.rootRefs := rfl
  rw [references, references, hroots, nodes_importJson, value_importJson, Array.toList_append,
    List.toList_toArray, List.flatMap_append]
  simp only [List.append_assoc]
  exact (honce.append_left _).append_left _

/-- Who referred to an old node still does, and nobody else; a new node is referred to
once. -/
theorem count_references_importJson (hg : g.WellFormed) (hj : j.Ordered) (id : Nat) :
    ((g.importJson j).1.references ++ (g.importJson j).2.ref?.toList).count id =
      if id < g.nodes.size then g.references.count id
      else if id < (g.importJson j).1.nodes.size then 1
      else 0 := by
  rw [(references_importJson hj).count_eq, List.count_append, List.count_range_1',
    nodeCount_importJson]
  by_cases hold : id < g.nodes.size
  · rw [if_pos hold, if_neg (by omega), Nat.add_zero]
  · have hnone : g.references.count id = 0 :=
      List.count_eq_zero.2 fun hmem => hold (hg.lt_of_mem_references hmem)
    rw [if_neg hold, hnone, Nat.zero_add]
    exact if_congr (and_iff_right (Nat.le_of_not_lt hold)) rfl rfl

theorem display_importJson_of_inside (hg : g.WellFormed) (j : Json) {v : Value}
    (hv : v.Inside g.nodes.size) : (g.importJson j).1.display v = g.display v := by
  cases v with
  | ref id => exact congrArg Json.toText (toJson_importJson_of_inside hg j hv)
  | _ => rfl

/-- Importing looks at what a variable keeps of a tree only. -/
theorem importJson_stored (g : Graph) (j : Json) : g.importJson j.stored = g.importJson j := by
  rw [importJson, importJson, Arena.importJson_eq, Arena.importJson_eq, Arena.layOut_stored]

/-- The nodes of a second copy are those of the first, further on. -/
theorem added_importJson (hj : j.Ordered) : (g.importJson j).1.added j =
    (g.added j).map (Node.map (Value.rename (· + (g.added j).length))) := by
  rw [added, nodeCount_importJson, Arena.layOut_add j _ _ hj]
  rfl

theorem value_importJson_again (hj : j.Ordered) : ((g.importJson j).1.importJson j).2 =
    (g.importJson j).2.rename (· + (g.added j).length) := by
  rw [value_importJson, nodeCount_importJson, Arena.layOut_add j _ _ hj, value_importJson]

/-- Importing makes an exact copy of a tree and changes nothing else.

The roots and the old nodes stay, and so does what is shown of them. A new node is there for
every array and object of the tree, in order; what lies below it is new and stands before it;
and it is referred to once, if the value that stands for the tree counts. That value
is shown as the tree with the nearest floating-point numbers, and importing what is shown
makes the same copy again. -/
theorem importJson_copies (hg : g.WellFormed) (hj : j.Ordered) :
    let g' := (g.importJson j).1
    let v := (g.importJson j).2
    ∃ fresh : List Node,
      (g'.roots = g.roots ∧ g'.nodes = g.nodes ++ fresh.toArray) ∧
      (∀ u : Value, u.Inside g.nodes.size → g'.toJson u = g.toJson u ∧ g'.display u = g.display u) ∧
      (fresh.length = j.containers.length ∧
        (List.range' g.nodes.size fresh.length).map (fun id => g'.toJson (.ref id)) =
          j.containers.map Json.stored) ∧
      (∀ a b, g.nodes.size ≤ b → TransGen g'.Child (.ref a) (.ref b) → g.nodes.size ≤ a ∧ a < b) ∧
      (∀ id, (g'.references ++ v.ref?.toList).count id =
        if id < g.nodes.size then g.references.count id
        else if id < g'.nodes.size then 1
        else 0) ∧
      (g'.WellFormed ∧ v.Inside g'.nodes.size) ∧
      (∃ near : Number → Binary64.Finite,
        (∀ n, n.toBinary64 = .finite (near n) ∧ (near n).Nearest n.exact) ∧
        g'.toJson v = j.mapNumbers fun n => .number (.float (near n))) ∧
      (∀ h : Graph, h.importJson (g'.toJson v) = h.importJson j) ∧
      let g'' := (g'.importJson (g'.toJson v)).1
      let v'' := (g'.importJson (g'.toJson v)).2
      g''.nodes = g'.nodes ++ (fresh.map (Node.map (Value.rename (· + fresh.length)))).toArray ∧
        v'' = v.rename (· + fresh.length) ∧ g''.toJson v'' = g'.toJson v := by
  intro g' v
  have htree : g'.toJson v = j.stored := toJson_importJson g hj
  have hagain : ∀ h : Graph, h.importJson (g'.toJson v) = h.importJson j := fun h => by
    rw [htree, importJson_stored]
  have hlength : (g.added j).length = j.containers.length := Arena.length_layOut j _
  refine ⟨g.added j, ⟨rfl, nodes_importJson g j⟩,
    fun u hu => ⟨toJson_importJson_of_inside hg j hu, display_importJson_of_inside hg j hu⟩,
    ⟨hlength, ?_⟩, fun a b => below_importJson hj, count_references_importJson hg hj,
    wellFormed_importJson hg j, ?_, hagain, ?_⟩
  · rw [hlength]
    exact Arena.trees_importJson j hj (.refl _) (Nat.le_succ _)
  · choose near hnear using Number.exists_nearest
    refine ⟨near, hnear, htree.trans (congrArg (Json.mapNumbers · j) (funext fun n => ?_))⟩
    rw [(hnear n).1, Value.numberJson]
  · simp only [hagain]
    refine ⟨?_, value_importJson_again hj, (toJson_importJson g' hj).trans htree.symm⟩
    rw [nodes_importJson, added_importJson hj]

/-- An object with a list in a list, next to an integer that is no floating-point number. -/
def parcel : Json :=
  .object [("gifts", .array [.number (.int 9007199254740993 (by decide)), .array []]),
    ("to", .string "x")]

/-- Behind nodes in a circle, which keep their tree, come the two lists and the object. -/
theorem importJson_copies_parcel :
    ring.WellFormed ∧ parcel.Ordered ∧
    let g' := (ring.importJson parcel).1
    let v := (ring.importJson parcel).2
    g'.roots = ring.roots ∧ g'.nodes.size = 6 ∧ g'.toJson (.ref 2) = ring.toJson (.ref 2) ∧
      ¬ TransGen g'.Child (.ref 5) (.ref 4) ∧
      (g'.references ++ v.ref?.toList).count 5 = 1 ∧
      (g'.references ++ v.ref?.toList).count 1 = ring.references.count 1 ∧
      (g'.importJson (g'.toJson v)).1.nodes.size = 9 := by
  have hring : ring.WellFormed := ⟨by decide, by decide⟩
  have hparcel : parcel.Ordered := by
    have hkeys : ["gifts", "to"].Pairwise (· < ·) := by decide
    refine ⟨Json.ascending_iff_keys.2 hkeys, ?_⟩
    simp [Json.OrderedMembers, Json.Ordered, Json.OrderedItems]
  have hcontainers : parcel.containers.length = 3 := by
    simp [parcel, Json.containers, Json.memberContainers, Json.itemContainers]
  rcases importJson_copies hring hparcel with
    ⟨fresh, ⟨hroots, hnodes⟩, hold, ⟨hlength, -⟩, hbelow, hcount, -, -, -, hagain, -, -⟩
  rw [hcontainers] at hlength
  have hsize : (ring.importJson parcel).1.nodes.size = 6 := by
    rw [hnodes]
    simp [hlength, ring]
  refine ⟨hring, hparcel, hroots, hsize, (hold (.ref 2) (by decide)).1, fun h => ?_, ?_, hcount 1, ?_⟩
  · have hlt := (hbelow 5 4 (by decide) h).2
    omega
  · rw [hcount 5, hsize]
    rfl
  · rw [hagain]
    simp [hsize, hlength]

end Graph

end ActionChain
