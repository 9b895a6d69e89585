import ActionChain.Proofs.Variables.PartialMap

/-!
# Unguarded Look-Ups

The walk once more, the way it is done when every look-up has to succeed.

`Graph.encode` answers for every graph: a reference that leads outside the
arena is passed over by the walk and holds nothing afterwards. That is
convenient and hides a question. A walk that trusts its references looks the
node of a visited position up and looks the number of a written reference up,
and has no answer when one of them is not there. `Unguarded.encode?` is that
walk, with `none` where a look-up fails; it also gives up when the rounds are
spent and nodes are still waiting.

It keeps no table. The visited nodes stand in a list, a node's number is the
place where it stands first, and a reference counts as visited as soon as it
was seen, inside the arena or not.

For a well-formed graph it succeeds and writes what `Graph.encode` writes
(`Unguarded.encode?_eq_some`), so no look-up fails and no node is left
waiting.

## Main definitions

* `Unguarded.visit`, `Unguarded.spread?`: the walk over visited nodes.
* `Unguarded.renumber?`: the number of a reference, looked up.
* `Unguarded.encode?`: the written form, if every look-up succeeds.

## Theorems

* `Unguarded.visitAll_eq`, `Unguarded.spread?_eq_some`: the walk is the guarded
  one as long as references lie inside.
* `Unguarded.encode?_eq_some`: no look-up fails on a well-formed graph.
-/

namespace ActionChain

/-- Looking every position up and mapping what stands there agrees with
passing over the positions that hold nothing, when all of them hold something. -/
theorem mapM_lookup_eq_some {nodes : Array Node} {f : Node → Option Node} {f' : Node → Node}
    {ids : List Nat} (h : ∀ id ∈ ids, ∃ node, nodes[id]? = some node ∧ f node = some (f' node)) :
    (ids.mapM fun id => do let node ← nodes[id]?; f node)
      = some (ids.filterMap fun id => nodes[id]?.map f') := by
  induction ids with
  | nil => rfl
  | cons id rest ih =>
      rcases h id List.mem_cons_self with ⟨node, hnode, hf⟩
      rw [List.mapM_cons, ih fun i hi => h i (List.mem_cons_of_mem _ hi)]
      simp [hnode, hf]

namespace Unguarded

/-- Lists the node a value refers to, unless it is listed. -/
def visit (order : List Nat) : Value → List Nat
  | .ref id => if id ∈ order then order else order ++ [id]
  | _ => order

/-- Visits the children of every listed node from a place on. There is no
answer when a listed node is not in the arena, or when the rounds are spent
before the list is. -/
def spread? (nodes : Array Node) : (rounds : Nat) → (position : Nat) → List Nat →
    Option (List Nat)
  | rounds, position, order =>
    match order[position]? with
    | none => some order
    | some id =>
      match rounds with
      | 0 => none
      | rounds + 1 => do
        let node ← nodes[id]?
        spread? nodes rounds (position + 1) (node.children.foldl visit order)

/-- A value with its reference replaced by the place where it is listed. -/
def renumber? (order : List Nat) : Value → Option Value
  | .ref id => (order.idxOf? id).map .ref
  | v => some v

/-- The written form of a graph, if every look-up succeeds. -/
def encode? (g : Graph) : Option Persisted := do
  let order ← spread? g.nodes g.nodes.size 0 (g.roots.values.foldl visit [])
  let roots ← g.roots.mapM? (renumber? order)
  let nodes ← order.mapM fun id => do
    let node ← g.nodes[id]?
    node.mapM? (renumber? order)
  pure ⟨roots, nodes⟩

/-! ## Every look-up succeeds -/

open ActionChain.Numbering (Valid childrenAt visit_of_mem visit_of_not_mem renumber_of_place)

variable {size : Nat} {nodes : Array Node} {n : Numbering}

theorem visit_eq (hn : Valid size n) {v : Value} (hv : v.Inside size) :
    visit n.order.toList v = (n.visit v).order.toList := by
  cases v with
  | ref id =>
      by_cases hmem : id ∈ n.order
      · rw [visit_of_mem hn hmem, visit, if_pos (Array.mem_def.1 hmem)]
      · rw [visit_of_not_mem hn hv hmem, visit, if_neg (fun h => hmem (Array.mem_def.2 h)),
          Array.toList_push]
  | _ => rfl

theorem visitAll_eq (hn : Valid size n) {vs : List Value} (hvs : ∀ v ∈ vs, v.Inside size) :
    vs.foldl visit n.order.toList = (vs.foldl Numbering.visit n).order.toList := by
  induction vs generalizing n with
  | nil => rfl
  | cons v rest ih =>
      rw [List.foldl_cons, List.foldl_cons, visit_eq hn (hvs v List.mem_cons_self)]
      exact ih (hn.visit v) fun w hw => hvs w (List.mem_cons_of_mem _ hw)

/-- In an arena that refers to nothing outside, every listed node is found, and
as many rounds as the arena has nodes empty the list. -/
theorem spread?_eq_some (hclosed : ∀ node ∈ nodes, ∀ v ∈ node.children, v.Inside nodes.size)
    (hn : Valid nodes.size n) {rounds position : Nat} (hfuel : nodes.size ≤ position + rounds) :
    spread? nodes rounds position n.order.toList
      = some (Numbering.spread nodes rounds position n).order.toList := by
  induction rounds generalizing position n with
  | zero =>
      -- Without rounds the position has passed the list, so nothing is looked up.
      have hsize := hn.order_size_le
      have hnone : n.order.toList[position]? = none := by
        rw [Array.getElem?_toList, Array.getElem?_eq_none_iff]
        omega
      rw [spread?, hnone]
      rfl
  | succ r ih =>
      cases hp : n.order[position]? with
      | none => rw [spread?, Array.getElem?_toList, hp, Numbering.spread_none hp]
      | some id =>
          have hlt := hn.lt (Array.mem_of_getElem? hp)
          have hnode : nodes[id]? = some nodes[id] := Array.getElem?_eq_getElem hlt
          have hchildren : childrenAt nodes id = nodes[id].children := by
            rw [childrenAt, hnode]
            rfl
          have hin := hclosed _ (Array.mem_of_getElem? hnode)
          rw [spread?, Array.getElem?_toList, hp, Numbering.spread_some hp, hchildren]
          simp only [hnode, Option.bind_eq_bind, Option.bind_some]
          rw [visitAll_eq hn hin]
          exact ih (hn.visitAll _) (by omega)

theorem renumber?_eq_some (hn : Valid size n) {v : Value}
    (hv : ∀ id, v = .ref id → id ∈ n.order) :
    renumber? n.order.toList v = some (n.renumber v) := by
  cases v with
  | ref id =>
      rcases Array.mem_iff_getElem?.1 (hv id rfl) with ⟨k, hk⟩
      have hidx : n.order.toList.idxOf? id = some k := by
        rw [List.idxOf?_eq_some_iff]
        -- It is the first place because it is the only one.
        rcases List.getElem?_eq_some_iff.1 (Array.getElem?_toList.trans hk) with ⟨hlt, heq⟩
        refine ⟨hlt, heq, ?_⟩
        intro l hl hlk
        have hl' : n.order[l]? = some id := by
          rw [← Array.getElem?_toList, List.getElem?_eq_getElem (by omega), hlk]
        have := hn.place_unique hl' hk
        omega
      rw [renumber?, hidx, renumber_of_place hn hk]
      rfl
  | _ => rfl

variable {g : Graph}

/-- On a well-formed graph no look-up fails. -/
theorem encode?_eq_some (hg : g.WellFormed) : encode? g = some g.encode := by
  have hvalid := Graph.valid_numbering g
  have hroots : g.roots.values.foldl visit []
      = (g.roots.values.foldl Numbering.visit (Numbering.start g.nodes.size)).order.toList :=
    visitAll_eq (Numbering.valid_start _) hg.roots
  have horder : spread? g.nodes g.nodes.size 0 (g.roots.values.foldl visit [])
      = some g.numbering.order.toList := by
    rw [hroots]
    exact spread?_eq_some hg.nodes (Graph.valid_roots g) (by omega)
  have hroots' : g.roots.mapM? (renumber? g.numbering.order.toList)
      = some (g.roots.map g.numbering.renumber) := by
    refine Dict.mapM?_eq_some fun v hv => renumber?_eq_some hvalid fun id hid => ?_
    subst hid
    exact Graph.mem_order_of_root hv (hg.roots _ hv)
  have hnodes : (g.numbering.order.toList.mapM fun id => do
        let node ← g.nodes[id]?
        node.mapM? (renumber? g.numbering.order.toList)) = some g.encode.nodes := by
    have hone : ∀ id ∈ g.numbering.order.toList, ∃ node, g.nodes[id]? = some node ∧
        node.mapM? (renumber? g.numbering.order.toList)
          = some (node.map g.numbering.renumber) := by
      intro id hid
      have hmem : id ∈ g.numbering.order := Array.mem_def.2 hid
      have hlt := hvalid.lt hmem
      have hnode : g.nodes[id]? = some g.nodes[id] := Array.getElem?_eq_getElem hlt
      refine ⟨_, hnode, Node.mapM?_eq_some fun v hv => renumber?_eq_some hvalid fun c hc => ?_⟩
      subst hc
      exact Graph.mem_order_of_child hmem hnode hv (hg.nodes _ (Array.mem_of_getElem? hnode) _ hv)
    exact mapM_lookup_eq_some hone
  rw [encode?, horder]
  simp only [Option.bind_eq_bind, Option.bind_some] at hnodes ⊢
  rw [hroots', Option.bind_some, hnodes]
  rfl

end Unguarded

end ActionChain
