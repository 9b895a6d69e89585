import ActionChain.Proofs.Variables.Canonical
import Mathlib.Data.Set.Function

/-!
# The Round Trip of a Graph

Writing a graph down and reading it back gives the same graph under other
node numbers, less its garbage.

Equality of what the keys show would say too little: a node written twice, or
a circle unrolled, shows the same. The statement is therefore about nodes. A
renaming carries the reachable nodes of one graph onto those of the other,
one to one, and takes every value along, so sharing and circles are carried
over too (`Renames`). The renaming of a round trip is the number that the
walk gives to a node.

That every node read back can be reached needs the walk over the written
form: it runs in step with the walk over the graph, and there every node is
its own number.

## Main definitions

* `Value.rename`: a value with its reference led elsewhere.
* `Graph.Renames`: a renaming of the reachable nodes.
* `Graph.number`: the number of a node.

## Theorems

* `Graph.renames_encode`: the numbers rename a graph to its written form.
* `Graph.reaches_toGraph_encode_iff`: a written form has no garbage.
* `Graph.decode_encode`: the round trip.
-/

namespace ActionChain

/-- A value with its reference led elsewhere. -/
def Value.rename (f : Nat → Nat) : Value → Value
  | .ref id => .ref (f id)
  | v => v

theorem Node.map_congr {node : Node} {f f' : Value → Value}
    (h : ∀ v ∈ node.children, f v = f' v) : node.map f = node.map f' := by
  cases node with
  | object fields =>
      rw [Node.map, Node.map, Node.object.injEq]
      apply Dict.ext_entries
      refine List.map_congr_left fun e he => Prod.ext rfl ?_
      exact h e.2 (List.mem_map_of_mem he)
  | list items => exact congrArg Node.list (List.map_congr_left h)

namespace Graph

open ActionChain.Numbering

/-- A renaming carries the reachable nodes of one graph one to one onto those
of another, and its roots and the content of its nodes with them. -/
structure Renames (f : Nat → Nat) (g h : Graph) : Prop where
  bijOn : Set.BijOn f {id | g.Reaches id} {id | h.Reaches id}
  roots : h.roots = g.roots.map (Value.rename f)
  nodes : ∀ id, g.Reaches id → h.node? (f id) = (g.node? id).map (Node.map (Value.rename f))

/-- The number that the walk gives to a node. -/
def number (g : Graph) (id : Nat) : Nat := (g.numbering.numbers[id]?.join).getD 0

variable {g : Graph}

theorem number_of_place {id k : Nat} (hk : g.place id k) : g.number id = k := by
  have hnum := ((valid_numbering g).number_iff id k).2 hk
  rw [number, hnum]
  rfl

/-- A reachable node stands at the place of its number. -/
theorem place_number (hg : g.WellFormed) {id : Nat} (h : g.Reaches id) :
    g.place id (g.number id) := by
  rcases Array.mem_iff_getElem?.1 ((mem_order_numbering hg).2 h) with ⟨k, hk⟩
  rw [number_of_place hk]
  exact hk

theorem renumber_eq_rename (hg : g.WellFormed) {v : Value}
    (hv : ∀ id, v = .ref id → g.Reaches id) : g.numbering.renumber v = v.rename g.number := by
  cases v with
  | ref id => exact renumber_of_place (valid_numbering g) (place_number hg (hv id rfl))
  | _ => rfl

/-- In the walk over a written form every node is its own number. -/
theorem place_toGraph_encode (hg : g.WellFormed) {k : Nat} (hk : k < g.numbering.order.size) :
    g.encode.toGraph.place k k := by
  have hplace : g.place g.numbering.order[k] k := Array.getElem?_eq_getElem hk
  -- The walk over the written form lists, at the place k, the partner of the node that the
  -- walk over the graph lists there; that partner is the place of the node, which is k.
  rcases (lockstep_numbering (matches_encode hg)).place_some hplace with ⟨l, hk', hl⟩
  have hkl : k = l := (valid_numbering g).place_unique hplace hl
  subst hkl
  exact hk'

/-- A written form has no garbage. -/
theorem reaches_toGraph_encode_iff (hg : g.WellFormed) {k : Nat} :
    g.encode.toGraph.Reaches k ↔ k < g.encode.nodes.length := by
  rw [length_nodes_encode]
  constructor
  · intro h
    have hlt := h.lt (wellFormed_encode g)
    rwa [Persisted.toGraph, List.size_toArray, length_nodes_encode] at hlt
  · intro hk
    refine (mem_order_numbering (wellFormed_encode g)).1 ?_
    exact Array.mem_of_getElem? (place_toGraph_encode hg hk)

theorem mapsTo_number (hg : g.WellFormed) :
    Set.MapsTo g.number {id | g.Reaches id} {k | g.encode.toGraph.Reaches k} := by
  intro id hid
  have hplace := place_number hg hid
  refine (reaches_toGraph_encode_iff hg).2 ?_
  rw [length_nodes_encode]
  exact (Array.getElem?_eq_some_iff.1 hplace).1

theorem injOn_number (hg : g.WellFormed) : Set.InjOn g.number {id | g.Reaches id} := by
  intro a ha b hb hab
  have hplace := place_number hg ha
  rw [hab] at hplace
  exact Option.some.inj (hplace.symm.trans (place_number hg hb))

theorem surjOn_number (hg : g.WellFormed) :
    Set.SurjOn g.number {id | g.Reaches id} {k | g.encode.toGraph.Reaches k} := by
  intro k hk
  have hlt := (reaches_toGraph_encode_iff hg).1 hk
  rw [length_nodes_encode] at hlt
  have hplace : g.place g.numbering.order[k] k := Array.getElem?_eq_getElem hlt
  refine ⟨g.numbering.order[k], ?_, number_of_place hplace⟩
  exact (mem_order_numbering hg).1 (Array.mem_of_getElem? hplace)

/-- The numbers rename a graph to its written form. -/
theorem renames_encode (hg : g.WellFormed) : g.Renames g.number g.encode.toGraph := by
  refine ⟨⟨mapsTo_number hg, injOn_number hg, surjOn_number hg⟩, ?_, ?_⟩
  · apply Dict.ext_entries
    refine List.map_congr_left fun e he => Prod.ext rfl ?_
    have hv : e.2 ∈ g.roots.values := List.mem_map_of_mem he
    refine renumber_eq_rename hg fun id hid => ?_
    rw [hid] at hv
    exact .root hv
  · intro id hid
    have hlt := hid.lt hg
    have hnode : g.nodes[id]? = some g.nodes[id] := Array.getElem?_eq_getElem hlt
    rw [node?, node?, Persisted.toGraph, List.getElem?_toArray,
      getElem?_nodes_encode_of_place (place_number hg hid), hnode, Option.map_some,
      Option.map_some]
    refine congrArg some (Node.map_congr fun v hv => renumber_eq_rename hg fun c hc => ?_)
    subst hc
    exact hid.child hnode hv

/-- Reading back what was written succeeds, with a graph that is the old one
under the numbers of its reachable nodes, has no garbage and is written the
same. -/
theorem decode_encode (hg : g.WellFormed) :
    ∃ g', decode g.encode = .ok g' ∧ (∃ f, g.Renames f g') ∧
      (∀ id, g'.Reaches id ↔ id < g'.nodeCount) ∧ g'.encode = g.encode := by
  refine ⟨g.encode.toGraph, ?_, ⟨g.number, renames_encode hg⟩, ?_, encode_toGraph_encode hg⟩
  · exact decode_eq_ok_iff_toGraph.2 ⟨rfl, wellFormed_encode g⟩
  · intro id
    rw [nodeCount, Persisted.toGraph, List.size_toArray]
    exact reaches_toGraph_encode_iff hg

/-- Two nodes in a circle, one of them shared by two keys and holding itself,
behind a node that no root reaches. -/
def ring : Graph where
  nodes := #[.list [.text "lost", .ref 2],
    .object (Dict.ofList [("me", .ref 1), ("next", .ref 2)]),
    .list [.ref 1, .bool true, .ref 1]]
  roots := Dict.ofList [("a", .ref 2), ("b", .ref 1), ("c", .ref 1), ("d", .text "x")]

theorem decode_encode_ring :
    ring.WellFormed ∧ ∃ g', decode ring.encode = .ok g' ∧ (∃ f, ring.Renames f g') ∧
      (∀ id, g'.Reaches id ↔ id < g'.nodeCount) ∧ g'.encode = ring.encode := by
  have hring : ring.WellFormed := ⟨by decide, by decide⟩
  exact ⟨hring, decode_encode hring⟩

end Graph

end ActionChain
