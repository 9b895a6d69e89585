import ActionChain.Proofs.Variables.PartialMap
import ActionChain.Proofs.Variables.RoundTrip

/-!
# The Order of a First Visit

In which order the walk numbers the nodes, said without the walk.

Read the references of the roots in the order of their keys, then those of
the nodes in the order in which they were met: where a node is met for the
first time is where it stands. This makes the order the solution of an
equation (`BreadthFirst.firstVisit`), which the walk solves one position at a
time: after a round, what has been numbered is what was met so far.

The equation alone would admit nodes that only refer to each other, so an
order is also required to list what the roots reach. With that there is one
solution, because whatever is listed up to some place decides the next place,
unless nothing is left to be met. And the order is breadth first, as the nodes
within any distance of the roots stand in front of all others.

The numbers are the places of this order. A written form is therefore the
same for graphs that are the same up to renaming, and a written form that is
in order already is written as it stands.

## Main definitions

* `Graph.BreadthFirst`: the order of a first visit.
* `Graph.Within`: a node within a distance of the roots.
* `Graph.writtenIn`: a graph written in an order of its nodes.

## Theorems

* `Graph.breadthFirst_numbering`: the walk lists the nodes in this order.
* `Graph.BreadthFirst.unique`: there is no other.
* `Graph.BreadthFirst.exists_prefix`: near nodes stand in front.
* `Graph.encode_toGraph_eq_iff`: what is written as it stands.
* `Graph.encode_canonical`: the written form is canonical.
-/

namespace ActionChain

/-- The position a value refers to, if it refers to one. -/
def Value.ref? : Value → Option Nat
  | .ref id => some id
  | _ => none

theorem Value.ref?_eq_some {v : Value} {id : Nat} : v.ref? = some id ↔ v = .ref id := by
  cases v <;> simp [ref?]

/-! ## First occurrences -/

theorem eraseDups_prefix (xs ys : List Nat) : xs.eraseDups <+: (xs ++ ys).eraseDups := by
  rw [List.eraseDups_append]
  exact List.prefix_append _ _

/-- One element more is a first occurrence, unless it has occurred. -/
theorem eraseDups_concat (xs : List Nat) (x : Nat) :
    (xs ++ [x]).eraseDups = if x ∈ xs then xs.eraseDups else xs.eraseDups ++ [x] := by
  rw [List.eraseDups_append]
  by_cases hx : x ∈ xs
  · simp [List.removeAll, hx]
  · simp [List.removeAll, hx, List.eraseDups_cons]

/-- In a list without repetition, a prefix holds what stands before its end. -/
theorem mem_prefix_iff {order front : List Nat} (hnodup : order.Nodup) (hfront : front <+: order)
    {i id : Nat} (hi : order[i]? = some id) : id ∈ front ↔ i < front.length := by
  rcases hfront with ⟨rest, rfl⟩
  constructor
  · intro hmem
    rcases List.mem_iff_getElem?.1 hmem with ⟨j, hj⟩
    have hlt := (List.getElem?_eq_some_iff.1 hj).1
    have hj' : (front ++ rest)[j]? = some id := by rw [List.getElem?_append_left hlt, hj]
    have hij : i = j :=
      (List.getElem?_inj (List.getElem?_eq_some_iff.1 hi).1 hnodup).1 (hi.trans hj'.symm)
    omega
  · intro hlt
    rw [List.getElem?_append_left hlt] at hi
    exact List.mem_of_getElem? hi

/-! ## The walk -/

namespace Numbering

/-- What is numbered are the first occurrences in what was met. -/
def Met (n : Numbering) (refs : List Nat) : Prop := n.order.toList = refs.eraseDups

theorem Met.visit {size : Nat} {n : Numbering} {refs : List Nat} (hmet : Met n refs)
    (hn : Valid size n) {v : Value} (hv : v.Inside size) :
    Met (n.visit v) (refs ++ v.ref?.toList) := by
  cases v with
  | ref id =>
      have hiff : id ∈ refs ↔ id ∈ n.order := by
        rw [Array.mem_def, hmet, List.mem_eraseDups]
      rw [Met, Value.ref?, Option.toList_some, eraseDups_concat]
      by_cases hmem : id ∈ n.order
      · rw [if_pos (hiff.2 hmem), visit_of_mem hn hmem]
        exact hmet
      · rw [if_neg fun hrefs => hmem (hiff.1 hrefs), visit_of_not_mem hn hv hmem,
          Array.toList_push, hmet]
  | _ => simpa [Met, Value.ref?, Numbering.visit] using hmet

theorem Met.visitAll {size : Nat} {n : Numbering} {refs : List Nat} (hmet : Met n refs)
    (hn : Valid size n) {vs : List Value} (hvs : ∀ v ∈ vs, v.Inside size) :
    Met (vs.foldl Numbering.visit n) (refs ++ vs.filterMap Value.ref?) := by
  induction vs generalizing n refs with
  | nil => simpa using hmet
  | cons v rest ih =>
      have hrest := ih (hmet.visit hn (hvs v List.mem_cons_self)) (hn.visit v)
        fun w hw => hvs w (List.mem_cons_of_mem _ hw)
      rw [List.append_assoc] at hrest
      rw [List.foldl_cons, List.filterMap_cons]
      cases href : v.ref? with
      | none => simpa [href] using hrest
      | some id => simpa [href] using hrest

theorem Extends.take_eq {n m : Numbering} (hnm : n.Extends m) {k : Nat}
    (hk : k ≤ n.order.size) : m.order.toList.take k = n.order.toList.take k := by
  apply List.ext_getElem?
  intro i
  rw [List.getElem?_take, List.getElem?_take]
  by_cases hi : i < k
  · have hplace : n.order[i]? = some n.order[i] := Array.getElem?_eq_getElem (by omega)
    rw [if_pos hi, if_pos hi, Array.getElem?_toList, Array.getElem?_toList, hnm i _ hplace, hplace]
  · rw [if_neg hi, if_neg hi]

end Numbering

/-! ## The order of a first visit -/

namespace Graph

open ActionChain.Numbering

/-- What the roots refer to, in the order of their keys. -/
def rootRefs (g : Graph) : List Nat := g.roots.values.filterMap Value.ref?

/-- What the node at a position refers to, in order. -/
def childRefs (g : Graph) (id : Nat) : List Nat := (childrenAt g.nodes id).filterMap Value.ref?

/-- An order lists the nodes the roots reach, each once and in the order of a
first visit: where it is met first when the references of the roots are read,
and then those of the nodes as they are listed. -/
structure BreadthFirst (g : Graph) (order : List Nat) : Prop where
  nodup : order.Nodup
  mem_iff : ∀ id, id ∈ order ↔ g.Reaches id
  firstVisit : order = (g.rootRefs ++ order.flatMap g.childRefs).eraseDups

/-- A node that a root refers to, or is that many references away from one. -/
inductive Within (g : Graph) : Nat → Nat → Prop where
  | root {k id : Nat} (h : .ref id ∈ g.roots.values) : Within g k id
  | child {k id c : Nat} {node : Node} (hid : Within g k id) (hnode : g.nodes[id]? = some node)
      (hc : .ref c ∈ node.children) : Within g (k + 1) c

/-- A graph written in an order of its nodes: every node is numbered by its
place. -/
def writtenIn (g : Graph) (order : List Nat) : Persisted where
  roots := g.roots.map (Value.rename fun id => order.idxOf id)
  nodes := order.filterMap fun id =>
    (g.node? id).map (Node.map (Value.rename fun id => order.idxOf id))

variable {g h : Graph} {order order' front : List Nat}

theorem mem_rootRefs {id : Nat} : id ∈ g.rootRefs ↔ .ref id ∈ g.roots.values := by
  simp [rootRefs, List.mem_filterMap, Value.ref?_eq_some]

theorem mem_childRefs {id c : Nat} :
    c ∈ g.childRefs id ↔ ∃ node, g.nodes[id]? = some node ∧ .ref c ∈ node.children := by
  simp only [childRefs, List.mem_filterMap, Value.ref?_eq_some, childrenAt]
  cases g.nodes[id]? <;> simp

/-- What has been met once the nodes before a position were looked at. -/
def metBefore (g : Graph) (n : Numbering) (position : Nat) : List Nat :=
  g.rootRefs ++ (n.order.toList.take position).flatMap g.childRefs

theorem childrenAt_inside (hg : g.WellFormed) (id : Nat) :
    ∀ v ∈ childrenAt g.nodes id, v.Inside g.nodes.size := by
  intro v hv
  cases hnode : g.nodes[id]? with
  | none => simp [childrenAt, hnode] at hv
  | some node =>
      simp only [childrenAt, hnode, Option.map_some, Option.getD_some] at hv
      exact hg.nodes node (Array.mem_of_getElem? hnode) v hv

/-- The walk ends with everything met that the numbered nodes refer to. -/
theorem met_spread (hg : g.WellFormed) {n : Numbering} (hn : Valid g.nodes.size n)
    {rounds position : Nat} (hmet : Met n (g.metBefore n position))
    (hfuel : g.nodes.size ≤ position + rounds) :
    Met (spread g.nodes rounds position n)
      (g.rootRefs ++ (spread g.nodes rounds position n).order.toList.flatMap g.childRefs) := by
  -- Past the end of the order, the nodes before the position are all of them.
  have hend : ∀ {n : Numbering} {position : Nat}, n.order.size ≤ position →
      Met n (g.metBefore n position) → Met n (g.rootRefs ++ n.order.toList.flatMap g.childRefs) := by
    intro n position hle hmet
    rwa [metBefore, List.take_of_length_le (by simpa using hle)] at hmet
  induction rounds generalizing position n with
  | zero =>
      have hsize : n.order.size ≤ position := Nat.le_trans hn.order_size_le (by omega)
      exact hend hsize hmet
  | succ r ih =>
      cases hp : n.order[position]? with
      | none =>
          rw [spread_none hp]
          exact hend (Array.getElem?_eq_none_iff.1 hp) hmet
      | some id =>
          have hlt := (Array.getElem?_eq_some_iff.1 hp).1
          have hstep := hmet.visitAll hn (childrenAt_inside hg id)
          -- Nothing before the position moves, and the node at it is looked at now.
          have htake : ((childrenAt g.nodes id).foldl visit n).order.toList.take (position + 1)
              = n.order.toList.take position ++ [id] := by
            rw [(extends_visitAll hn _).take_eq hlt, List.take_add_one, Array.getElem?_toList, hp]
            rfl
          rw [spread_some hp]
          refine ih (hn.visitAll _) ?_ (by omega)
          rw [metBefore, htake, List.flatMap_append, ← List.append_assoc, List.flatMap_singleton]
          exact hstep

/-- The walk lists the nodes in the order of a first visit. -/
theorem breadthFirst_numbering (hg : g.WellFormed) :
    g.BreadthFirst g.numbering.order.toList := by
  have hstart : Met (start g.nodes.size) [] := rfl
  have hroots := hstart.visitAll (valid_start _) hg.roots
  refine ⟨(valid_numbering g).nodup, fun id => ?_, ?_⟩
  · rw [← Array.mem_def]
    exact mem_order_numbering hg
  · refine met_spread hg (valid_roots g) ?_ (by omega)
    simpa [metBefore, rootRefs] using hroots

/-! ## The order -/

namespace BreadthFirst

/-- What is met up to a place of the order stands in front. -/
theorem met_prefix (ho : g.BreadthFirst order) (hfront : front <+: order) :
    (g.rootRefs ++ front.flatMap g.childRefs).eraseDups <+: order := by
  rcases hfront with ⟨rest, hrest⟩
  have hvisit := ho.firstVisit
  rw [← hrest, List.flatMap_append, ← List.append_assoc, hrest] at hvisit
  rw [hvisit]
  exact eraseDups_prefix _ _

/-- The nodes within a distance of the roots stand in front of all others. -/
theorem exists_prefix (ho : g.BreadthFirst order) (k : Nat) :
    ∃ front, front <+: order ∧ ∀ id, id ∈ front ↔ g.Within k id := by
  induction k with
  | zero =>
      refine ⟨_, ho.met_prefix List.nil_prefix, fun id => ?_⟩
      rw [List.flatMap_nil, List.append_nil, List.mem_eraseDups, mem_rootRefs]
      constructor
      · exact .root
      · intro hid
        cases hid with
        | root h => exact h
  | succ k ih =>
      rcases ih with ⟨front, hfront, hwithin⟩
      refine ⟨_, ho.met_prefix hfront, fun id => ?_⟩
      simp only [List.mem_eraseDups, List.mem_append, List.mem_flatMap, mem_rootRefs,
        mem_childRefs]
      constructor
      · rintro (hroot | ⟨a, ha, node, hnode, hc⟩)
        · exact .root hroot
        · exact .child ((hwithin a).1 ha) hnode hc
      · intro hid
        cases hid with
        | root h => exact .inl h
        | child ha hnode hc => exact .inr ⟨_, (hwithin _).2 ha, _, hnode, hc⟩

/-- A part of the nodes that holds everything met from it holds every node. -/
theorem mem_of_reaches
    (hclosed : ∀ id ∈ g.rootRefs ++ front.flatMap g.childRefs, id ∈ front) {id : Nat}
    (hid : g.Reaches id) : id ∈ front := by
  induction hid with
  | root h => exact hclosed _ (List.mem_append_left _ (mem_rootRefs.2 h))
  | child _ hnode hc ih =>
      refine hclosed _ (List.mem_append_right _ (List.mem_flatMap.2 ⟨_, ih, ?_⟩))
      exact mem_childRefs.2 ⟨_, hnode, hc⟩

/-- A prefix that holds every node is the whole order. -/
theorem take_eq_self (ho : g.BreadthFirst order) {k : Nat}
    (hall : ∀ id, g.Reaches id → id ∈ order.take k) : order.take k = order := by
  refine List.take_of_length_le (Nat.le_of_not_lt fun hk => ?_)
  have hplace : order[k]? = some order[k] := List.getElem?_eq_getElem hk
  have hmem := hall _ ((ho.mem_iff _).1 (List.mem_of_getElem? hplace))
  have hlt := (mem_prefix_iff ho.nodup (List.take_prefix k order) hplace).1 hmem
  rw [List.length_take] at hlt
  omega

/-- Orders of a first visit agree up to every place: what is listed so far
decides what is met next. -/
theorem take_eq (ho : g.BreadthFirst order) (ho' : g.BreadthFirst order') (k : Nat) :
    order.take k = order'.take k := by
  induction k with
  | zero => rfl
  | succ k ih =>
      have hmet := ho.met_prefix (List.take_prefix k order)
      have hmet' := ho'.met_prefix (List.take_prefix k order')
      rw [← ih] at hmet'
      generalize hfront : (g.rootRefs ++ (order.take k).flatMap g.childRefs).eraseDups = met
        at hmet hmet'
      by_cases hlen : k < met.length
      · -- The next place is among what has been met.
        rcases hmet with ⟨rest, rfl⟩
        rcases hmet' with ⟨rest', rfl⟩
        rw [List.take_append_of_le_length hlen, List.take_append_of_le_length hlen]
      · -- Nothing is left to be met, so both orders end here.
        have hclosed : ∀ id ∈ g.rootRefs ++ (order.take k).flatMap g.childRefs,
            id ∈ order.take k := by
          intro id hid
          rw [← List.mem_eraseDups, hfront] at hid
          refine List.IsPrefix.subset ?_ hid
          refine List.prefix_of_prefix_length_le hmet (List.take_prefix k order) ?_
          have hle := hmet.length_le
          rw [List.length_take]
          omega
        have hall : ∀ id, g.Reaches id → id ∈ order.take k := fun id => mem_of_reaches hclosed
        have hself := ho.take_eq_self hall
        rw [ih] at hall
        have hself' := ho'.take_eq_self hall
        rw [hself, hself'] at ih
        rw [ih]

theorem unique (ho : g.BreadthFirst order) (ho' : g.BreadthFirst order') : order = order' := by
  have htake := ho.take_eq ho' (order.length + order'.length)
  rwa [List.take_of_length_le (by omega), List.take_of_length_le (by omega)] at htake

/-- The number of a node is its place. -/
theorem number_eq (hg : g.WellFormed) (ho : g.BreadthFirst order) {id : Nat}
    (hid : g.Reaches id) : g.number id = order.idxOf id := by
  have hplace := place_number hg hid
  rw [ho.unique (breadthFirst_numbering hg)]
  rw [place, ← Array.getElem?_toList] at hplace
  rcases List.getElem?_eq_some_iff.1 hplace with ⟨hlt, heq⟩
  have hidx := (valid_numbering g).nodup.idxOf_getElem _ hlt
  rw [heq] at hidx
  exact hidx.symm

/-- The written form is the graph written in this order. -/
theorem encode_eq (hg : g.WellFormed) (ho : g.BreadthFirst order) :
    g.encode = g.writtenIn order := by
  -- On everything the roots reach, the two ways to renumber agree.
  have hrename : ∀ v : Value, (∀ id, v = .ref id → g.Reaches id) →
      g.numbering.renumber v = v.rename fun id => order.idxOf id := by
    intro v hv
    rw [renumber_eq_rename hg hv]
    cases v with
    | ref id => exact congrArg Value.ref (number_eq hg ho (hv id rfl))
    | _ => rfl
  have hroots : g.roots.map g.numbering.renumber
      = g.roots.map (Value.rename fun id => order.idxOf id) := by
    apply Dict.ext_entries
    refine List.map_congr_left fun e he => Prod.ext rfl (hrename e.2 fun id hid => ?_)
    exact .root (hid ▸ List.mem_map_of_mem he)
  rw [encode, writtenIn, hroots, ← ho.unique (breadthFirst_numbering hg), Persisted.mk.injEq]
  refine ⟨rfl, List.filterMap_congr fun id hid => ?_⟩
  rw [node?]
  cases hnode : g.nodes[id]? with
  | none => rfl
  | some node =>
      refine congrArg some (Node.map_congr fun v hv => hrename v fun c hc => ?_)
      subst hc
      exact ((ho.mem_iff id).1 hid).child hnode hv

end BreadthFirst

/-! ## What is written as it stands -/

variable {p : Persisted}

/-- If the reference to a node is written as it stands, the node has its own
place for a number. -/
theorem place_of_renumber_eq (hg : g.WellFormed) {id : Nat} (hid : g.Reaches id)
    (hsame : g.numbering.renumber (.ref id) = .ref id) : g.place id id := by
  have hplace := place_number hg hid
  rw [renumber_of_place (valid_numbering g) hplace, Value.ref.injEq] at hsame
  rwa [hsame] at hplace

/-- A written form that is written as it stands has every node at its own
place. -/
theorem place_of_encode_eq (hg : p.toGraph.WellFormed) (heq : p.toGraph.encode = p) {id : Nat}
    (hid : p.toGraph.Reaches id) : p.toGraph.place id id := by
  have hroots : p.roots.map p.toGraph.numbering.renumber = p.roots :=
    congrArg Persisted.roots heq
  -- The induction follows the references: a node at its own place is compared with itself,
  -- so what it refers to is written as it stands as well.
  induction hid with
  | root h =>
      exact place_of_renumber_eq hg (.root h) (Dict.map_eq_self_iff.1 hroots _ h)
  | @child a c node ha hnode hc ih =>
      have hwritten := getElem?_nodes_encode_of_place ih
      have hnode' : p.nodes[a]? = some node := by
        rwa [Persisted.toGraph, List.getElem?_toArray] at hnode
      rw [heq, hnode, hnode', Option.map_some, Option.some.injEq] at hwritten
      exact place_of_renumber_eq hg (ha.child hnode hc)
        (Node.map_eq_self_iff.1 hwritten.symm _ hc)

/-- A written form is written as it stands exactly if its nodes are numbered by
the walk. -/
theorem encode_toGraph_eq_iff (hg : p.toGraph.WellFormed) :
    p.toGraph.encode = p ↔
      p.toGraph.numbering.order.toList = List.range p.toGraph.nodeCount := by
  have hcount : p.toGraph.nodeCount = p.nodes.length := by
    rw [nodeCount, Persisted.toGraph, List.size_toArray]
  constructor
  · intro heq
    have hsize : p.toGraph.numbering.order.size = p.toGraph.nodeCount := by
      rw [← length_nodes_encode, heq, hcount]
    refine List.ext_getElem (by simpa using hsize) fun k hk _ => ?_
    have hplace : p.toGraph.place p.toGraph.numbering.order[k] k := Array.getElem?_eq_getElem hk
    have hid := (mem_order_numbering hg).1 (Array.mem_of_getElem? hplace)
    rw [List.getElem_range, Array.getElem_toList]
    exact (valid_numbering _).place_unique (place_of_encode_eq hg heq hid) hplace
  · intro horder
    have hplace : ∀ k < p.toGraph.nodeCount, p.toGraph.place k k := by
      intro k hk
      rw [place, ← Array.getElem?_toList, horder, List.getElem?_range hk]
    have hkeep : ∀ v : Value, v.Inside p.toGraph.nodeCount →
        p.toGraph.numbering.renumber v = v := by
      intro v hv
      cases v with
      | ref id => exact renumber_of_place (valid_numbering _) (hplace id hv)
      | _ => rfl
    have hroots : p.toGraph.encode.roots = p.roots :=
      Dict.map_eq_self_iff.2 fun v hv => hkeep v (hg.roots v hv)
    have hnodes : p.toGraph.encode.nodes = p.nodes := by
      refine List.ext_getElem? fun k => ?_
      by_cases hk : k < p.nodes.length
      · have hnode : p.toGraph.nodes[k]? = some p.nodes[k] := by
          rw [Persisted.toGraph, List.getElem?_toArray, List.getElem?_eq_getElem hk]
        rw [getElem?_nodes_encode_of_place (hplace k (by omega)), hnode, Option.map_some,
          List.getElem?_eq_getElem hk, Option.some.injEq]
        exact Node.map_eq_self_iff.2 fun v hv =>
          hkeep v (hg.nodes _ (Array.mem_of_getElem? hnode) v hv)
      · have hlength : p.toGraph.encode.nodes.length = p.nodes.length := by
          rw [length_nodes_encode, ← Array.length_toList, horder, List.length_range, hcount]
        rw [List.getElem?_eq_none (by omega), List.getElem?_eq_none (by omega)]
    calc p.toGraph.encode = ⟨p.toGraph.encode.roots, p.toGraph.encode.nodes⟩ := rfl
      _ = p := by rw [hroots, hnodes]

/-! ## Renaming -/

/-- Graphs that are the same up to a renaming of what their roots reach match. -/
theorem Renames.matches {f : Nat → Nat} (hg : g.WellFormed) (hf : g.Renames f h) :
    g.Matches (fun a b => g.Reaches a ∧ f a = b) h := by
  have hvalue : ∀ v : Value, (∀ id, v = .ref id → g.Reaches id) →
      v.Matches (fun a b => g.Reaches a ∧ f a = b) (v.rename f) := by
    intro v hv
    cases v with
    | null => exact .null
    | bool b => exact .bool b
    | number x => exact .number x
    | text s => exact .text s
    | ref id => exact .ref ⟨hv id rfl, rfl⟩
  refine ⟨⟨⟨?_, ?_⟩, ?_⟩, ?_⟩
  · rintro a a' b ⟨ha, rfl⟩ ⟨ha', heq⟩
    exact hf.bijOn.injOn ha ha' heq.symm
  · rintro a b b' ⟨-, rfl⟩ ⟨-, rfl⟩
    rfl
  · rintro a b ⟨ha, rfl⟩
    have hinside : a < g.nodes.size := ha.lt hg
    have hnode : g.nodes[a]? = some g.nodes[a] := Array.getElem?_eq_getElem hinside
    have himage := hf.nodes a ha
    rw [node?, node?, hnode, Option.map_some] at himage
    refine ⟨_, _, hnode, himage, Node.matches_map fun v hv => hvalue v fun id hid => ?_⟩
    subst hid
    exact ha.child hnode hv
  · rw [hf.roots, Entries.Matches, Dict.map, List.forall₂_map_right_iff, List.forall₂_same]
    intro e he
    exact ⟨rfl, hvalue e.2 fun id hid => .root (hid ▸ List.mem_map_of_mem he)⟩

/-- The written form is canonical. Graphs that are the same up to a renaming of
what their roots reach are written the same; the nodes are written in the order
of a first visit, which is breadth first; and a written form is written as it
stands exactly if it can be read, has no garbage and is in this order already. -/
theorem encode_canonical (hg : g.WellFormed) :
    (∀ f, g.Renames f h → g.encode = h.encode) ∧
    (∃ order, g.BreadthFirst order ∧ g.encode = g.writtenIn order ∧
      ∀ k, ∃ front, front <+: order ∧ ∀ id, id ∈ front ↔ g.Within k id) ∧
    ∀ p, (∃ g', decode p = .ok g' ∧ g'.encode = p) ↔
      ∃ g', decode p = .ok g' ∧ (∀ id < g'.nodeCount, g'.Reaches id) ∧
        g'.BreadthFirst (List.range g'.nodeCount) := by
  have horder := breadthFirst_numbering hg
  refine ⟨fun f hf => encode_eq_of_matches (hf.matches hg),
    ⟨_, horder, horder.encode_eq hg, horder.exists_prefix⟩, fun p => ?_⟩
  constructor
  · rintro ⟨g', hdecode, heq⟩
    rcases decode_eq_ok_iff_toGraph.1 hdecode with ⟨rfl, hp⟩
    have horder' := breadthFirst_numbering hp
    rw [(encode_toGraph_eq_iff hp).1 heq] at horder'
    refine ⟨_, hdecode, fun id hid => ?_, horder'⟩
    exact (horder'.mem_iff id).1 (List.mem_range.2 hid)
  · rintro ⟨g', hdecode, -, horder'⟩
    rcases decode_eq_ok_iff_toGraph.1 hdecode with ⟨rfl, hp⟩
    exact ⟨_, hdecode, (encode_toGraph_eq_iff hp).2 ((breadthFirst_numbering hp).unique horder')⟩

/-- The ring and its written form lie differently, are written the same, and the
latter is in order. -/
theorem encode_canonical_ring :
    ring.WellFormed ∧ ring.nodeCount ≠ ring.encode.toGraph.nodeCount ∧
    ring.encode = ring.encode.toGraph.encode ∧
    (∃ order, ring.BreadthFirst order ∧ ring.encode = ring.writtenIn order ∧
      ∀ k, ∃ front, front <+: order ∧ ∀ id, id ∈ front ↔ ring.Within k id) ∧
    ∃ g', decode ring.encode = .ok g' ∧ (∀ id < g'.nodeCount, g'.Reaches id) ∧
      g'.BreadthFirst (List.range g'.nodeCount) := by
  have hring : ring.WellFormed := ⟨by decide, by decide⟩
  rcases encode_canonical (h := ring.encode.toGraph) hring with ⟨hsame, horder, hfixed⟩
  refine ⟨hring, by decide, hsame _ (renames_encode hring), horder, (hfixed ring.encode).1 ?_⟩
  rcases decode_encode hring with ⟨g', hdecode, -, -, heq⟩
  exact ⟨g', hdecode, heq⟩

end Graph

end ActionChain
