import ActionChain.Variables.Numbering
import Mathlib.Data.List.Nodup
import Mathlib.Data.List.Perm.Subperm

/-!
# The Breadth-First Walk

What numbering the nodes of a graph visits, and in what state it stops.

Two facts about a numbering are kept by every visit: the table of numbers and
the order of the visited nodes are inverse to each other, and what has been
visited stays where it is. The first is `Valid`. It makes the order free of
repetition, so the order is never longer than the arena, and this is why as
many rounds as the arena has nodes are enough: after them the position has
passed the end of the order.

What the walk is for is said by `ClosedBelow`: whatever the nodes before a
position hold has been visited. A round moves the position by one and keeps
this, and at the end there is nothing behind the position. A set that holds
the roots and is closed under children holds everything the walk visits, and
the visited nodes are such a set, so they are the nodes that can be reached
(`mem_order_numbering`).

## Main definitions

* `Graph.Reaches`: a node can be reached from a root.
* `Numbering.Valid`: the table and the order are inverse to each other.
* `Numbering.Extends`: what was numbered keeps its number.
* `Numbering.ClosedBelow`: the nodes before a position have had their children
  visited.

## Theorems

* `Numbering.Valid.visit`, `Numbering.mem_visit`: one visit.
* `Numbering.closed_spread`: the walk ends with all children visited.
* `Numbering.spread_add`: more rounds than the arena has nodes change nothing.
* `Graph.mem_order_numbering`: the numbered nodes are the reachable ones.
-/

namespace ActionChain

/-- The node at a position can be reached from a root. -/
inductive Graph.Reaches (g : Graph) : Nat → Prop where
  | root {id : Nat} (h : .ref id ∈ g.roots.values) : Reaches g id
  | child {id c : Nat} {node : Node} (hid : Reaches g id) (hnode : g.nodes[id]? = some node)
      (hc : .ref c ∈ node.children) : Reaches g c

theorem Graph.Reaches.lt {g : Graph} (hg : g.WellFormed) {id : Nat} (h : g.Reaches id) :
    id < g.nodes.size := by
  cases h with
  | root h => exact hg.roots _ h
  | child _ hnode hc => exact hg.nodes _ (Array.mem_of_getElem? hnode) _ hc

/-- A list of distinct positions of an arena is no longer than the arena. -/
theorem length_le_of_nodup_of_lt {ids : List Nat} {size : Nat} (hnodup : ids.Nodup)
    (hlt : ∀ id ∈ ids, id < size) : ids.length ≤ size := by
  have hsub : ids ⊆ List.range size := fun id hid => List.mem_range.2 (hlt id hid)
  have hlen := (List.subperm_of_subset hnodup hsub).length_le
  rwa [List.length_range] at hlen

namespace Numbering

variable {size : Nat} {nodes : Array Node} {n m : Numbering}

/-- The table of numbers is as long as the arena, and a node has a number
exactly when it stands at that place of the order. -/
structure Valid (size : Nat) (n : Numbering) : Prop where
  size_eq : n.numbers.size = size
  number_iff : ∀ id k : Nat, n.numbers[id]? = some (some k) ↔ n.order[k]? = some id

/-- Every numbered node keeps its number. -/
def Extends (n m : Numbering) : Prop :=
  ∀ k id : Nat, n.order[k]? = some id → m.order[k]? = some id

/-- Whatever the nodes before a position of the order refer to is numbered. -/
def ClosedBelow (nodes : Array Node) (position : Nat) (n : Numbering) : Prop :=
  ∀ (k id : Nat) (node : Node) (c : Nat),
    k < position → n.order[k]? = some id → nodes[id]? = some node →
    .ref c ∈ node.children → c < nodes.size → c ∈ n.order

/-! ## Valid numberings -/

theorem valid_start (size : Nat) : Valid size (start size) := by
  refine ⟨by simp only [start, Array.size_replicate], ?_⟩
  intro id k
  constructor
  · intro h
    simp only [start, Array.getElem?_replicate] at h
    by_cases hlt : id < size
    · rw [if_pos hlt, Option.some.injEq] at h
      cases h
    · rw [if_neg hlt] at h
      cases h
  · intro h
    simp only [start, List.getElem?_toArray, List.getElem?_nil, reduceCtorEq] at h

theorem Valid.lt (hn : Valid size n) {id : Nat} (h : id ∈ n.order) : id < size := by
  rcases Array.mem_iff_getElem?.1 h with ⟨k, hk⟩
  have hnum := (hn.number_iff id k).2 hk
  rw [← hn.size_eq]
  exact (Array.getElem?_eq_some_iff.1 hnum).1

/-- No node stands at two places of the order. -/
theorem Valid.place_unique (hn : Valid size n) {id k l : Nat} (hk : n.order[k]? = some id)
    (hl : n.order[l]? = some id) : k = l := by
  have hk' := (hn.number_iff id k).2 hk
  have hl' := (hn.number_iff id l).2 hl
  rw [hk', Option.some.injEq, Option.some.injEq] at hl'
  exact hl'

theorem Valid.nodup (hn : Valid size n) : n.order.toList.Nodup := by
  rw [List.nodup_iff_getElem?_ne_getElem?]
  intro k l hkl hl heq
  rw [Array.getElem?_toList, Array.getElem?_toList] at heq
  have hsome : n.order[l]? = some n.order[l] := Array.getElem?_eq_getElem (by simpa using hl)
  have := hn.place_unique (heq.trans hsome) hsome
  omega

/-- The order is no longer than the arena. -/
theorem Valid.order_size_le (hn : Valid size n) : n.order.size ≤ size := by
  rw [← Array.length_toList]
  exact length_le_of_nodup_of_lt hn.nodup fun id hid => hn.lt (Array.mem_def.2 hid)

theorem Valid.numbers_of_not_mem (hn : Valid size n) {id : Nat} (hlt : id < size)
    (h : id ∉ n.order) : n.numbers[id]? = some none := by
  have hlt' : id < n.numbers.size := by rw [hn.size_eq]; exact hlt
  rw [Array.getElem?_eq_getElem hlt', Option.some.injEq]
  cases hv : n.numbers[id] with
  | none => rfl
  | some k =>
      exfalso
      apply h
      have hnum : n.numbers[id]? = some (some k) := by rw [Array.getElem?_eq_getElem hlt', hv]
      exact Array.mem_of_getElem? ((hn.number_iff id k).1 hnum)

/-! ## A visit -/

theorem visit_of_mem (hn : Valid size n) {id : Nat} (h : id ∈ n.order) :
    n.visit (.ref id) = n := by
  rcases Array.mem_iff_getElem?.1 h with ⟨k, hk⟩
  simp only [visit, (hn.number_iff id k).2 hk]

theorem visit_of_le (hn : Valid size n) {id : Nat} (h : size ≤ id) : n.visit (.ref id) = n := by
  have hnone : n.numbers[id]? = none := by
    rw [Array.getElem?_eq_none_iff, hn.size_eq]
    exact h
  simp only [visit, hnone]

theorem visit_of_not_mem (hn : Valid size n) {id : Nat} (hlt : id < size) (h : id ∉ n.order) :
    n.visit (.ref id)
      = ⟨n.numbers.setIfInBounds id (some n.order.size), n.order.push id⟩ := by
  simp only [visit, hn.numbers_of_not_mem hlt h]

/-- What a visit can do: nothing, because the value needs no number or has one,
or number a node of the arena that had none. -/
theorem visit_cases (hn : Valid size n) (v : Value) :
    (n.visit v = n ∧ ∀ id, v = .ref id → id < size → id ∈ n.order) ∨
      ∃ id, v = .ref id ∧ id < size ∧ id ∉ n.order ∧ n.visit v
        = ⟨n.numbers.setIfInBounds id (some n.order.size), n.order.push id⟩ := by
  cases v with
  | ref id =>
      -- A reference leads to a numbered node, to one without a number, or outside.
      by_cases hlt : id < size
      · by_cases hmem : id ∈ n.order
        · refine .inl ⟨visit_of_mem hn hmem, ?_⟩
          intro id' heq _
          cases heq
          exact hmem
        · exact .inr ⟨id, rfl, hlt, hmem, visit_of_not_mem hn hlt hmem⟩
      · refine .inl ⟨visit_of_le hn (Nat.le_of_not_lt hlt), ?_⟩
        intro id' heq hlt'
        cases heq
        exact absurd hlt' hlt
  | _ => exact .inl ⟨rfl, fun _ heq => by cases heq⟩

/-- Numbering one more node keeps table and order inverse to each other. -/
theorem Valid.push (hn : Valid size n) {id : Nat} (hlt : id < size) (h : id ∉ n.order) :
    Valid size ⟨n.numbers.setIfInBounds id (some n.order.size), n.order.push id⟩ := by
  refine ⟨by rw [Array.size_setIfInBounds, hn.size_eq], ?_⟩
  intro id' k
  have hlt' : id < n.numbers.size := by rw [hn.size_eq]; exact hlt
  rw [Array.getElem?_setIfInBounds, Array.getElem?_push]
  -- The new entry of the table and the new place of the order are each other's, and no
  -- other node gained or lost a place.
  by_cases hid : id = id'
  · subst hid
    rw [if_pos rfl, if_pos hlt', Option.some.injEq, Option.some.injEq]
    constructor
    · intro hk
      rw [if_pos hk.symm]
    · intro hk
      by_cases hkn : k = n.order.size
      · exact hkn.symm
      · rw [if_neg hkn] at hk
        exact absurd (Array.mem_of_getElem? hk) h
  · rw [if_neg hid]
    constructor
    · intro hk
      have hk' := (hn.number_iff id' k).1 hk
      have hlt'' := (Array.getElem?_eq_some_iff.1 hk').1
      rw [if_neg (Nat.ne_of_lt hlt'')]
      exact hk'
    · intro hk
      by_cases hkn : k = n.order.size
      · rw [if_pos hkn, Option.some.injEq] at hk
        exact absurd hk hid
      · rw [if_neg hkn] at hk
        exact (hn.number_iff id' k).2 hk

theorem Valid.visit (hn : Valid size n) (v : Value) : Valid size (n.visit v) := by
  rcases visit_cases hn v with ⟨heq, _⟩ | ⟨id, _, hlt, hmem, heq⟩
  · rw [heq]
    exact hn
  · rw [heq]
    exact hn.push hlt hmem

theorem mem_visit (hn : Valid size n) (v : Value) (id : Nat) :
    id ∈ (n.visit v).order ↔ id ∈ n.order ∨ (v = .ref id ∧ id < size) := by
  rcases visit_cases hn v with ⟨heq, hold⟩ | ⟨new, hv, hlt, _, heq⟩
  · rw [heq]
    constructor
    · exact .inl
    · intro h
      rcases h with h | ⟨hv, hlt⟩
      · exact h
      · exact hold id hv hlt
  · rw [heq, Array.mem_push]
    refine or_congr_right ?_
    constructor
    · intro h
      subst h
      exact ⟨hv, hlt⟩
    · intro h
      rw [hv, Value.ref.injEq] at h
      exact h.1.symm

theorem extends_visit (hn : Valid size n) (v : Value) : n.Extends (n.visit v) := by
  intro k id hk
  rcases visit_cases hn v with ⟨heq, _⟩ | ⟨new, _, _, _, heq⟩
  · rw [heq]
    exact hk
  · have hlt := (Array.getElem?_eq_some_iff.1 hk).1
    rw [heq, Array.getElem?_push_lt hlt, ← Array.getElem?_eq_getElem hlt]
    exact hk

/-! ## Several visits -/

theorem Valid.visitAll (hn : Valid size n) (vs : List Value) :
    Valid size (vs.foldl Numbering.visit n) := by
  induction vs generalizing n with
  | nil => exact hn
  | cons v rest ih => exact ih (hn.visit v)

theorem mem_visitAll (hn : Valid size n) (vs : List Value) (id : Nat) :
    id ∈ (vs.foldl Numbering.visit n).order ↔ id ∈ n.order ∨ (.ref id ∈ vs ∧ id < size) := by
  induction vs generalizing n with
  | nil => simp only [List.foldl_nil, List.not_mem_nil, false_and, or_false]
  | cons v rest ih =>
      rw [List.foldl_cons, ih (hn.visit v), mem_visit hn, List.mem_cons, or_assoc, ← or_and_right,
        eq_comm (a := v)]

theorem extends_visitAll (hn : Valid size n) (vs : List Value) :
    n.Extends (vs.foldl Numbering.visit n) := by
  induction vs generalizing n with
  | nil => exact fun _ _ h => h
  | cons v rest ih =>
      intro k id hk
      exact ih (hn.visit v) k id (extends_visit hn v k id hk)

/-! ## The walk -/

/-- What the walk looks at when it comes to a node: the values the node
holds. -/
def childrenAt (nodes : Array Node) (id : Nat) : List Value :=
  (nodes[id]?.map Node.children).getD []

theorem spread_none {rounds position : Nat} (h : n.order[position]? = none) :
    spread nodes rounds position n = n := by
  cases rounds with
  | zero => rfl
  | succ r => simp only [spread, h]

theorem spread_some {rounds position id : Nat} (h : n.order[position]? = some id) :
    spread nodes (rounds + 1) position n
      = spread nodes rounds (position + 1) ((childrenAt nodes id).foldl visit n) := by
  simp only [spread, h, childrenAt]

theorem Valid.spread (hn : Valid nodes.size n) (rounds position : Nat) :
    Valid nodes.size (Numbering.spread nodes rounds position n) := by
  induction rounds generalizing position n with
  | zero => exact hn
  | succ r ih =>
      cases hp : n.order[position]? with
      | none =>
          rw [spread_none hp]
          exact hn
      | some id =>
          rw [spread_some hp]
          exact ih (hn.visitAll _) _

theorem extends_spread (hn : Valid nodes.size n) (rounds position : Nat) :
    n.Extends (spread nodes rounds position n) := by
  induction rounds generalizing position n with
  | zero => exact fun _ _ h => h
  | succ r ih =>
      cases hp : n.order[position]? with
      | none =>
          rw [spread_none hp]
          exact fun _ _ h => h
      | some id =>
          rw [spread_some hp]
          intro k id' hk
          exact ih (hn.visitAll _) _ k id' (extends_visitAll hn _ k id' hk)

/-- Visiting the children of the node at a position closes one position more. -/
theorem ClosedBelow.step (hn : Valid nodes.size n) {position id : Nat}
    (hc : ClosedBelow nodes position n) (hp : n.order[position]? = some id) :
    ClosedBelow nodes (position + 1) ((childrenAt nodes id).foldl visit n) := by
  intro k id' node c hk hid hnode hmem hlt
  have hplt := (Array.getElem?_eq_some_iff.1 hp).1
  -- The place is one of the old order, where nothing has moved.
  have hkold : n.order[k]? = some n.order[k] := Array.getElem?_eq_getElem (by omega)
  have hsame := (extends_visitAll hn (childrenAt nodes id) k _ hkold).symm.trans hid
  rw [← hkold] at hsame
  by_cases hkp : k = position
  · subst hkp
    rw [hp, Option.some.injEq] at hsame
    subst hsame
    refine (mem_visitAll hn _ _).2 (.inr ⟨?_, hlt⟩)
    simp only [childrenAt, hnode, Option.map_some, Option.getD_some]
    exact hmem
  · exact (mem_visitAll hn _ _).2 (.inl (hc k id' node c (by omega) hsame hnode hmem hlt))

/-- Once the position has passed the end of the order, every place is below
it. -/
theorem ClosedBelow.mem {position : Nat} (hc : ClosedBelow nodes position n)
    (hend : n.order.size ≤ position) {id c : Nat} {node : Node} (hid : id ∈ n.order)
    (hnode : nodes[id]? = some node) (hmem : .ref c ∈ node.children) (hlt : c < nodes.size) :
    c ∈ n.order := by
  rcases Array.mem_iff_getElem?.1 hid with ⟨k, hk⟩
  have hklt := (Array.getElem?_eq_some_iff.1 hk).1
  exact hc k id node c (by omega) hk hnode hmem hlt

/-- The walk ends with the children of every numbered node numbered, given
rounds for the rest of the arena. -/
theorem closed_spread (hn : Valid nodes.size n) {rounds position : Nat}
    (hc : ClosedBelow nodes position n) (hfuel : nodes.size ≤ position + rounds)
    {id c : Nat} {node : Node} (hid : id ∈ (spread nodes rounds position n).order)
    (hnode : nodes[id]? = some node) (hmem : .ref c ∈ node.children) (hlt : c < nodes.size) :
    c ∈ (spread nodes rounds position n).order := by
  -- The induction is on the rounds that are left; each one moves the position by one.
  induction rounds generalizing position n with
  | zero =>
      -- The position has passed the arena, and the order is no longer than the arena.
      have hsize := hn.order_size_le
      exact hc.mem (by omega) hid hnode hmem hlt
  | succ r ih =>
      cases hp : n.order[position]? with
      | none =>
          rw [spread_none hp] at hid ⊢
          exact hc.mem (Array.getElem?_eq_none_iff.1 hp) hid hnode hmem hlt
      | some id' =>
          rw [spread_some hp] at hid ⊢
          exact ih (hn.visitAll _) (hc.step hn hp) (by omega) hid

/-- What is closed under children and holds the nodes numbered so far holds
everything the walk numbers. -/
theorem sound_spread (hn : Valid nodes.size n) {P : Nat → Prop}
    (hclosed : ∀ id c node, P id → nodes[id]? = some node → .ref c ∈ node.children → P c)
    (rounds position : Nat) (hstart : ∀ id ∈ n.order, P id) :
    ∀ id ∈ (spread nodes rounds position n).order, P id := by
  induction rounds generalizing position n with
  | zero => exact hstart
  | succ r ih =>
      cases hp : n.order[position]? with
      | none =>
          rw [spread_none hp]
          exact hstart
      | some id' =>
          rw [spread_some hp]
          refine ih (hn.visitAll _) _ ?_
          intro c hc
          -- A node numbered in this round is a child of one that was numbered before.
          rcases (mem_visitAll hn _ _).1 hc with hc | ⟨hc, _⟩
          · exact hstart c hc
          · cases hnode : nodes[id']? with
            | none =>
                simp only [childrenAt, hnode, Option.map_none, Option.getD_none,
                  List.not_mem_nil] at hc
            | some node =>
                simp only [childrenAt, hnode, Option.map_some, Option.getD_some] at hc
                exact hclosed id' c node (hstart id' (Array.mem_of_getElem? hp)) hnode hc

/-- More rounds than the arena has nodes change nothing. -/
theorem spread_add (hn : Valid nodes.size n) {rounds position : Nat}
    (hfuel : nodes.size ≤ position + rounds) (more : Nat) :
    spread nodes (rounds + more) position n = spread nodes rounds position n := by
  induction rounds generalizing position n with
  | zero =>
      -- Nobody is waiting any more, so further rounds do nothing.
      have hsize := hn.order_size_le
      have hnone : n.order[position]? = none := Array.getElem?_eq_none_iff.2 (by omega)
      rw [spread_none hnone, spread_none hnone]
  | succ r ih =>
      rw [Nat.add_right_comm]
      cases hp : n.order[position]? with
      | none => rw [spread_none hp, spread_none hp]
      | some id =>
          rw [spread_some hp, spread_some hp]
          exact ih (hn.visitAll _) (by omega)

end Numbering

/-! ## The numbering of a graph -/

namespace Graph

open ActionChain.Numbering

/-- The numbering before the walk: the nodes the roots refer to. -/
theorem valid_roots (g : Graph) :
    Valid g.nodes.size (g.roots.values.foldl Numbering.visit (Numbering.start g.nodes.size)) :=
  (valid_start _).visitAll _

theorem valid_numbering (g : Graph) : Valid g.nodes.size g.numbering :=
  (valid_roots g).spread _ _

theorem not_mem_start (size id : Nat) : id ∉ (Numbering.start size).order := by
  simp only [Numbering.start, Array.not_mem_empty, not_false_eq_true]

/-- A node of the arena that a root refers to is numbered. -/
theorem mem_order_of_root {g : Graph} {id : Nat} (h : .ref id ∈ g.roots.values)
    (hlt : id < g.nodes.size) : id ∈ g.numbering.order := by
  have hmem := (mem_visitAll (valid_start g.nodes.size) g.roots.values id).2 (.inr ⟨h, hlt⟩)
  rcases Array.mem_iff_getElem?.1 hmem with ⟨k, hk⟩
  exact Array.mem_of_getElem? (extends_spread (valid_roots g) _ _ k id hk)

/-- A node of the arena that a numbered node refers to is numbered. -/
theorem mem_order_of_child {g : Graph} {id c : Nat} {node : Node} (hid : id ∈ g.numbering.order)
    (hnode : g.nodes[id]? = some node) (hc : .ref c ∈ node.children) (hlt : c < g.nodes.size) :
    c ∈ g.numbering.order := by
  refine closed_spread (valid_roots g) ?_ (by omega) hid hnode hc hlt
  intro k _ _ _ hk
  exact absurd hk (Nat.not_lt_zero k)

/-- The numbered nodes are the ones that can be reached. -/
theorem mem_order_numbering {g : Graph} (hg : g.WellFormed) {id : Nat} :
    id ∈ g.numbering.order ↔ g.Reaches id := by
  constructor
  · refine sound_spread (valid_roots g) (fun _ _ _ hid hnode hc => hid.child hnode hc) _ _ ?_ id
    intro r hr
    rcases (mem_visitAll (valid_start _) _ _).1 hr with hr | ⟨hr, _⟩
    · exact absurd hr (not_mem_start _ _)
    · exact .root hr
  · intro h
    induction h with
    | root h => exact mem_order_of_root h (hg.roots _ h)
    | child _ hnode hc ih =>
        exact mem_order_of_child ih hnode hc (hg.nodes _ (Array.mem_of_getElem? hnode) _ hc)

end Graph

end ActionChain
