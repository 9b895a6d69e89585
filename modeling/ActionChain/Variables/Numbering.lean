import ActionChain.Variables.Graph

/-!
# Numbering Reachable Nodes

A graph is written without its garbage and without the accidents of its
history. The nodes its roots reach are numbered in the order of a first
visit, breadth first: the roots in the order of their keys, then what each
visited node holds, in order. Two graphs that look the same from their roots
are then written the same.

The walk keeps the visited nodes in a single array. The nodes before a
position have had their children looked at, those from it on are still
waiting, so the array is queue and result at once, and every round moves the
position by one. A node is visited once, so the walk is over after as many
rounds as the arena has nodes.

Reading a persisted graph back has nothing to rebuild, because positions
already are the references. It only checks that every reference lies inside.

## Main definitions

* `Numbering`: visited nodes in order, and the number of each.
* `Graph.numbering`: the numbering of the nodes the roots reach.
* `Persisted`: a graph as it is written.
* `Graph.encode`, `Graph.decode`: to and from the written form.
* `Graph.compact`: forgetting what no root reaches.

## Theorems

* `Graph.decode_eq_ok_iff`: decoding succeeds exactly when every reference lies
  inside, and then keeps everything as it is.
-/

namespace ActionChain

/-- Nodes in the order they were visited, and the number each was given. -/
structure Numbering where
  /-- The number given to the node at each position of the arena. -/
  numbers : Array (Option Nat)
  /-- The positions of the numbered nodes, in the order of their numbers. -/
  order : Array Nat

namespace Numbering

/-- No node of an arena of a size is numbered yet. -/
def start (size : Nat) : Numbering := ⟨Array.replicate size none, #[]⟩

/-- Gives the next number to the node a value refers to, unless it has one. -/
def visit (n : Numbering) : Value → Numbering
  | .ref id =>
    match n.numbers[id]? with
    | some none => ⟨n.numbers.setIfInBounds id (some n.order.size), n.order.push id⟩
    -- It has a number, or lies outside the arena.
    | _ => n
  | _ => n

/-- Visits the children of every numbered node from a position on. -/
def spread (nodes : Array Node) : (rounds : Nat) → (position : Nat) → Numbering → Numbering
  | 0, _, n => n
  | rounds + 1, position, n =>
    match n.order[position]? with
    | none => n
    | some id =>
      let children := (nodes[id]?.map Node.children).getD []
      spread nodes rounds (position + 1) (children.foldl visit n)

/-- A value with its reference renumbered. A reference to a node without a
number leads nowhere and holds nothing. -/
def renumber (n : Numbering) : Value → Value
  | .ref id =>
    match n.numbers[id]? with
    | some (some number) => .ref number
    | _ => .null
  | v => v

end Numbering

/-- A graph as it is written: the roots, and the nodes they may refer to. -/
structure Persisted where
  roots : Dict String Value
  nodes : List Node
  deriving DecidableEq

namespace Graph

/-- The numbering of the nodes that the roots reach. -/
def numbering (g : Graph) : Numbering :=
  Numbering.spread g.nodes g.nodes.size 0
    (g.roots.values.foldl Numbering.visit (Numbering.start g.nodes.size))

/-- The written form of a graph. -/
def encode (g : Graph) : Persisted :=
  let n := g.numbering
  { roots := g.roots.map n.renumber
    nodes := n.order.toList.filterMap fun id => g.nodes[id]?.map (Node.map n.renumber) }

/-- The graph of a written form, refused with the first reference that leads
outside it: the roots are looked at first, then the nodes in order. -/
def decode (p : Persisted) : Except GraphError Graph :=
  let g : Graph := ⟨p.nodes.toArray, p.roots⟩
  match g.checkAll (p.roots.values ++ p.nodes.flatMap Node.children) with
  | .ok () => .ok g
  | .error e => .error e

/-- Forgets the nodes that no root reaches and renumbers the rest; returns how
many were forgotten. When there are none the graph stays as it is, numbers
included. -/
def compact (g : Graph) : Graph × Nat :=
  let p := g.encode
  -- A node is written once, so equal lengths mean that all are reached.
  if p.nodes.length = g.nodes.size then (g, 0)
  else (⟨p.nodes.toArray, p.roots⟩, g.nodes.size - p.nodes.length)

/-- Decoding succeeds exactly when every reference lies inside, and then keeps
everything as it is. -/
theorem decode_eq_ok_iff {p : Persisted} {g : Graph} :
    decode p = .ok g ↔ g = ⟨p.nodes.toArray, p.roots⟩ ∧ g.WellFormed := by
  -- The values looked at are those of the roots and of the nodes, and no others.
  have key : (checkAll ⟨p.nodes.toArray, p.roots⟩
      (p.roots.values ++ p.nodes.flatMap Node.children) = .ok ()) ↔
      WellFormed ⟨p.nodes.toArray, p.roots⟩ := by
    rw [checkAll_eq_ok_iff]
    constructor
    · intro h
      refine ⟨fun v hv => h v (List.mem_append_left _ hv), fun n hn v hv => ?_⟩
      exact h v (List.mem_append_right _ (List.mem_flatMap.2 ⟨n, by simpa using hn, hv⟩))
    · intro h v hv
      rcases List.mem_append.1 hv with hv | hv
      · exact h.roots v hv
      · obtain ⟨n, hn, hv⟩ := List.mem_flatMap.1 hv
        exact h.nodes n (by simpa using hn) v hv
  unfold decode
  dsimp only
  split
  · rename_i hcheck
    constructor
    · rintro h
      cases h
      exact ⟨rfl, key.1 hcheck⟩
    · rintro ⟨rfl, -⟩
      rfl
  · rename_i e hcheck
    constructor
    · rintro ⟨⟩
    · rintro ⟨rfl, h⟩
      rw [key.2 h] at hcheck
      cases hcheck

end Graph

end ActionChain
