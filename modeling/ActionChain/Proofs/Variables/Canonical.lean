import ActionChain.Proofs.Variables.Matching
import ActionChain.Proofs.Variables.Traversal

/-!
# Canonical Forms

The written form of a graph decides the graph up to where its nodes lie, and
is decided by it.

Walking two matching graphs is one walk: the roots match in the order of
their keys, a node is new on one side exactly if its partner is new on the
other, and partners hold matching values in the same order. The two orders
therefore list partners at the same places (`Lockstep`), partners have the
same number, and the written forms are equal. The arenas may differ in size,
so the two walks are given the same rounds first, which `spread_add` allows.

In the other direction a graph matches its own written form, a node's partner
being the place of its number. Two graphs with one written form match it
both, so they match each other.

## Main definitions

* `Persisted.toGraph`: a written form as a graph, unchecked.
* `Numbering.Lockstep`: partners at the same places of two orders.
* `Graph.place`: the partner relation between a graph and its written form.

## Theorems

* `Graph.encode_eq_of_matches`: matching graphs have one written form.
* `Graph.matches_encode`: a graph matches its written form.
* `Graph.encode_eq_encode_iff`: one written form exactly if the graphs match.
* `Graph.wellFormed_encode`, `Graph.encode_toGraph_encode`: a written form
  refers to nothing outside and is its own written form.
* `Graph.wellFormed_compact`, `Graph.encode_compact`: compaction keeps both.
-/

namespace ActionChain

/-- The graph of a written form, whatever its references are. -/
def Persisted.toGraph (p : Persisted) : Graph := ⟨p.nodes.toArray, p.roots⟩

theorem decode_eq_ok_iff_toGraph {p : Persisted} {g : Graph} :
    Graph.decode p = .ok g ↔ g = p.toGraph ∧ p.toGraph.WellFormed := by
  rw [Graph.decode_eq_ok_iff]
  constructor
  · rintro ⟨rfl, hg⟩
    exact ⟨rfl, hg⟩
  · rintro ⟨rfl, hg⟩
    exact ⟨rfl, hg⟩

theorem Dict.ext_entries {κ α : Type} [LT κ] {d d' : Dict κ α} (h : d.entries = d'.entries) :
    d = d' := by
  cases d
  cases d'
  cases h
  rfl

theorem Entries.Matches.map_eq {α β : Type} {R : α → α → Prop} {d d' : Dict String α}
    {f f' : α → β} (h : Entries.Matches R d.entries d'.entries) (hf : ∀ v w, R v w → f v = f' w) :
    d.map f = d'.map f' := by
  apply Dict.ext_entries
  rw [Dict.map, Dict.map, ← List.forall₂_eq_eq_eq, List.forall₂_map_left_iff,
    List.forall₂_map_right_iff]
  exact List.Forall₂.imp (fun _ _ he => Prod.ext he.1 (hf _ _ he.2)) h

theorem Node.Matches.map_eq {ρ : Nat → Nat → Prop} {n m : Node} {f f' : Value → Value}
    (h : n.Matches ρ m) (hf : ∀ v w, v.Matches ρ w → f v = f' w) : n.map f = m.map f' := by
  cases h with
  | object h => rw [Node.map, Node.map, h.map_eq hf]
  | list h =>
      rw [Node.map, Node.map, Node.list.injEq, ← List.forall₂_eq_eq_eq,
        List.forall₂_map_left_iff, List.forall₂_map_right_iff]
      exact List.Forall₂.imp hf h

theorem forall₂_getElem? {α β : Type} {R : α → β → Prop} {xs : List α} {ys : List β}
    (h : List.Forall₂ R xs ys) (k : Nat) : Option.Rel R xs[k]? ys[k]? := by
  induction h generalizing k with
  | nil => exact .none
  | cons hxy _ ih =>
      cases k with
      | zero => exact .some hxy
      | succ k => exact ih k

theorem getElem?_filterMap {α β : Type} {f : α → Option β} {xs : List α}
    (h : ∀ x ∈ xs, (f x).isSome) (k : Nat) : (xs.filterMap f)[k]? = xs[k]?.bind f := by
  induction xs generalizing k with
  | nil => rfl
  | cons x rest ih =>
      rcases Option.isSome_iff_exists.1 (h x List.mem_cons_self) with ⟨y, hy⟩
      rw [List.filterMap_cons, hy]
      cases k with
      | zero => exact hy.symm
      | succ k => exact ih (fun x hx => h x (List.mem_cons_of_mem _ hx)) k

/-- A node matches its image if the values it holds match theirs. -/
theorem Node.matches_map {ρ : Nat → Nat → Prop} {node : Node} {f : Value → Value}
    (h : ∀ v ∈ node.children, v.Matches ρ (f v)) : node.Matches ρ (node.map f) := by
  cases node with
  | object fields =>
      refine .object ?_
      rw [Entries.Matches, Dict.map, List.forall₂_map_right_iff, List.forall₂_same]
      intro e he
      exact ⟨rfl, h e.2 (List.mem_map_of_mem he)⟩
  | list items =>
      refine .list ?_
      rw [List.forall₂_map_right_iff, List.forall₂_same]
      exact h

/-! ## Numbers -/

namespace Numbering

variable {size : Nat} {n m : Numbering}

theorem renumber_of_place (hn : Valid size n) {k id : Nat} (h : n.order[k]? = some id) :
    n.renumber (.ref id) = .ref k := by
  simp only [renumber, (hn.number_iff id k).2 h]

theorem renumber_of_not_mem (hn : Valid size n) {id : Nat} (h : id ∉ n.order) :
    n.renumber (.ref id) = .null := by
  by_cases hlt : id < size
  · simp only [renumber, hn.numbers_of_not_mem hlt h]
  · have hnone : n.numbers[id]? = none := by
      rw [Array.getElem?_eq_none_iff, hn.size_eq]
      omega
    simp only [renumber, hnone]

/-- A number is a place of the order. -/
theorem inside_renumber (hn : Valid size n) (v : Value) :
    (n.renumber v).Inside n.order.size := by
  cases v with
  | ref id =>
      by_cases hmem : id ∈ n.order
      · rcases Array.mem_iff_getElem?.1 hmem with ⟨k, hk⟩
        rw [renumber_of_place hn hk]
        exact (Array.getElem?_eq_some_iff.1 hk).1
      · rw [renumber_of_not_mem hn hmem]
        trivial
  | _ => trivial

/-! ## Two walks at once -/

variable {ρ : Nat → Nat → Prop} {ns ms : Array Node}

/-- The orders list partners at the same places. -/
def Lockstep (ρ : Nat → Nat → Prop) (n m : Numbering) : Prop :=
  List.Forall₂ ρ n.order.toList m.order.toList

theorem Lockstep.place (hl : Lockstep ρ n m) (k : Nat) : Option.Rel ρ n.order[k]? m.order[k]? := by
  rw [← Array.getElem?_toList, ← Array.getElem?_toList]
  exact forall₂_getElem? hl k

/-- The orders are equally long, and where one lists a node the other lists its
partner. -/
theorem Lockstep.place_some (hl : Lockstep ρ n m) {k a : Nat} (hk : n.order[k]? = some a) :
    ∃ b, m.order[k]? = some b ∧ ρ a b := by
  have hplace := hl.place k
  rw [hk] at hplace
  exact exists_of_rel_some hplace

theorem Lockstep.place_none (hl : Lockstep ρ n m) {k : Nat} (hk : n.order[k]? = none) :
    m.order[k]? = none := by
  have hplace := hl.place k
  rw [hk] at hplace
  exact eq_none_of_rel_none hplace

/-- A node is numbered exactly if its partner is. -/
theorem Lockstep.mem_iff (hl : Lockstep ρ n m) (ha : Arena.Matches ρ ns ms) {a b : Nat}
    (hab : ρ a b) : a ∈ n.order ↔ b ∈ m.order := by
  rw [Array.mem_def, Array.mem_def]
  exact List.rel_mem ha.unique hab hl

theorem Lockstep.visit (ha : Arena.Matches ρ ns ms) (hn : Valid ns.size n) (hm : Valid ms.size m)
    (hl : Lockstep ρ n m) {v w : Value} (hv : v.Matches ρ w) :
    Lockstep ρ (n.visit v) (m.visit w) := by
  cases hv with
  | @ref a b hab =>
      -- Partners are both numbered, or both take the next place.
      by_cases hmem : a ∈ n.order
      · rw [visit_of_mem hn hmem, visit_of_mem hm ((hl.mem_iff ha hab).1 hmem)]
        exact hl
      · have hmem' : b ∉ m.order := fun hb => hmem ((hl.mem_iff ha hab).2 hb)
        rw [visit_of_not_mem hn (ha.lt_left hab) hmem,
          visit_of_not_mem hm (ha.lt_right hab) hmem']
        rw [Lockstep, Array.toList_push, Array.toList_push]
        exact List.rel_append hl (.cons hab .nil)
  | _ => exact hl

theorem Lockstep.visitAll (ha : Arena.Matches ρ ns ms) (hn : Valid ns.size n)
    (hm : Valid ms.size m) (hl : Lockstep ρ n m) {vs ws : List Value}
    (hvs : List.Forall₂ (Value.Matches ρ) vs ws) :
    Lockstep ρ (vs.foldl Numbering.visit n) (ws.foldl Numbering.visit m) := by
  induction hvs generalizing n m with
  | nil => exact hl
  | cons hv _ ih => exact ih (hn.visit _) (hm.visit _) (hl.visit ha hn hm hv)

theorem childrenAt_matches (ha : Arena.Matches ρ ns ms) {a b : Nat} (hab : ρ a b) :
    List.Forall₂ (Value.Matches ρ) (childrenAt ns a) (childrenAt ms b) := by
  rcases ha.nodes a b hab with ⟨n, m, hn, hm, hnm⟩
  simp only [childrenAt, hn, hm, Option.map_some, Option.getD_some]
  exact hnm.children

theorem Lockstep.spread (ha : Arena.Matches ρ ns ms) (hn : Valid ns.size n)
    (hm : Valid ms.size m) (hl : Lockstep ρ n m) (rounds position : Nat) :
    Lockstep ρ (Numbering.spread ns rounds position n)
      (Numbering.spread ms rounds position m) := by
  induction rounds generalizing position n m with
  | zero => exact hl
  | succ r ih =>
      -- Both walks are over, or both go on with the children of partners.
      cases hp : n.order[position]? with
      | none =>
          rw [spread_none hp, spread_none (hl.place_none hp)]
          exact hl
      | some a =>
          rcases hl.place_some hp with ⟨b, hp', hab⟩
          have hchildren := childrenAt_matches ha hab
          rw [spread_some hp, spread_some hp']
          exact ih (hn.visitAll _) (hm.visitAll _) (hl.visitAll ha hn hm hchildren) _

/-- Partners have the same number. -/
theorem Lockstep.renumber (ha : Arena.Matches ρ ns ms) (hn : Valid ns.size n)
    (hm : Valid ms.size m) (hl : Lockstep ρ n m) {v w : Value} (hv : v.Matches ρ w) :
    n.renumber v = m.renumber w := by
  cases hv with
  | @ref a b hab =>
      by_cases hmem : a ∈ n.order
      · rcases Array.mem_iff_getElem?.1 hmem with ⟨k, hk⟩
        rcases hl.place_some hk with ⟨b', hk', hab'⟩
        -- The partner listed at this place is the one of the values, as there is no other.
        have hb : b' = b := ha.unique.2 hab' hab
        subst hb
        rw [renumber_of_place hn hk, renumber_of_place hm hk']
      · have hmem' : b ∉ m.order := fun hb => hmem ((hl.mem_iff ha hab).2 hb)
        rw [renumber_of_not_mem hn hmem, renumber_of_not_mem hm hmem']
  | _ => rfl

end Numbering

namespace Graph

open ActionChain.Numbering

variable {ρ : Nat → Nat → Prop} {g h : Graph}

/-- The walks of matching graphs run in step, however large either arena is. -/
theorem lockstep_numbering (hgh : g.Matches ρ h) : Lockstep ρ g.numbering h.numbering := by
  have hroots : Lockstep ρ (g.roots.values.foldl visit (start g.nodes.size))
      (h.roots.values.foldl visit (start h.nodes.size)) :=
    Lockstep.visitAll hgh.arena (valid_start _) (valid_start _) .nil hgh.roots.values
  -- Each walk is given the rounds of both arenas, of which it needs its own only.
  have hspread := hroots.spread hgh.arena (valid_roots g) (valid_roots h)
    (g.nodes.size + h.nodes.size) 0
  rw [spread_add (valid_roots g) (by omega), Nat.add_comm g.nodes.size,
    spread_add (valid_roots h) (by omega)] at hspread
  exact hspread

/-- Matching graphs have one written form. -/
theorem encode_eq_of_matches (hgh : g.Matches ρ h) : g.encode = h.encode := by
  have hl := lockstep_numbering hgh
  have hnum : ∀ v w, v.Matches ρ w → g.numbering.renumber v = h.numbering.renumber w :=
    fun v w hv => hl.renumber hgh.arena (valid_numbering g) (valid_numbering h) hv
  have hroots := hgh.roots.map_eq hnum
  have hnodes : (g.numbering.order.toList.filterMap fun id =>
        g.nodes[id]?.map (Node.map g.numbering.renumber))
      = h.numbering.order.toList.filterMap fun id =>
        h.nodes[id]?.map (Node.map h.numbering.renumber) := by
    rw [← List.forall₂_eq_eq_eq]
    -- The nodes are written in the two orders, which list partners at the same places.
    refine List.rel_filterMap (fun a b hab => ?_) hl
    rcases hgh.arena.nodes a b hab with ⟨n, m, hn, hm, hnm⟩
    rw [hn, hm]
    exact .some (hnm.map_eq hnum)
  simp only [encode, hroots, hnodes]

/-! ## A graph and its written form -/

/-- A node and the place of its number. -/
def place (g : Graph) (id k : Nat) : Prop := g.numbering.order[k]? = some id

/-- Every numbered node is written, at the place of its number. -/
theorem getElem?_nodes_encode (g : Graph) (k : Nat) :
    g.encode.nodes[k]? = g.numbering.order[k]?.bind fun id =>
      g.nodes[id]?.map (Node.map g.numbering.renumber) := by
  rw [← Array.getElem?_toList]
  refine getElem?_filterMap ?_ k
  intro id hid
  have hlt := (valid_numbering g).lt (Array.mem_def.2 hid)
  rw [Array.getElem?_eq_getElem hlt]
  rfl

theorem getElem?_nodes_encode_of_place {id k : Nat} (hk : g.place id k) :
    g.encode.nodes[k]? = g.nodes[id]?.map (Node.map g.numbering.renumber) := by
  rw [getElem?_nodes_encode]
  exact congrArg (Option.bind · _) hk

theorem length_nodes_encode (g : Graph) : g.encode.nodes.length = g.numbering.order.size := by
  rw [← Array.length_toList]
  refine List.filterMap_length_eq_length.2 ?_
  intro id hid
  have hlt := (valid_numbering g).lt (Array.mem_def.2 hid)
  rw [Array.getElem?_eq_getElem hlt]
  rfl

/-- Every reference of a written form lies inside it. -/
theorem wellFormed_encode (g : Graph) : g.encode.toGraph.WellFormed := by
  have hsize : g.encode.toGraph.nodes.size = g.numbering.order.size := by
    rw [Persisted.toGraph, List.size_toArray, length_nodes_encode]
  refine ⟨?_, ?_⟩
  · intro v hv
    have hv' : v ∈ (g.roots.map g.numbering.renumber).values := hv
    rw [Dict.values_map] at hv'
    rcases List.mem_map.1 hv' with ⟨w, _, rfl⟩
    rw [hsize]
    exact inside_renumber (valid_numbering g) w
  · intro node hnode v hv
    have hnode' : node ∈ g.encode.nodes := by
      simpa only [Persisted.toGraph, List.mem_toArray] using hnode
    rcases List.mem_filterMap.1 hnode' with ⟨id, _, hid⟩
    rcases Option.map_eq_some_iff.1 hid with ⟨old, _, rfl⟩
    rw [Node.children_map] at hv
    rcases List.mem_map.1 hv with ⟨w, _, rfl⟩
    rw [hsize]
    exact inside_renumber (valid_numbering g) w

/-- A reference to a numbered node matches its number. -/
theorem matches_renumber {v : Value} (hv : ∀ id, v = .ref id → id ∈ g.numbering.order) :
    v.Matches g.place (g.numbering.renumber v) := by
  cases v with
  | null => exact .null
  | bool b => exact .bool b
  | number x => exact .number x
  | text s => exact .text s
  | ref id =>
      rcases Array.mem_iff_getElem?.1 (hv id rfl) with ⟨k, hk⟩
      rw [renumber_of_place (valid_numbering g) hk]
      exact .ref hk

/-- A graph matches its written form. -/
theorem matches_encode (hg : g.WellFormed) : g.Matches g.place g.encode.toGraph := by
  refine ⟨⟨⟨?_, ?_⟩, ?_⟩, ?_⟩
  -- A place holds one node, and a node stands at one place.
  · intro a b k hak hbk
    exact Option.some.inj (hak.symm.trans hbk)
  · intro a k l hk hl
    exact (valid_numbering g).place_unique hk hl
  -- What a numbered node refers to is numbered as well, so its image matches it.
  · intro id k hk
    have hmem : id ∈ g.numbering.order := Array.mem_of_getElem? hk
    have hlt : id < g.nodes.size := (valid_numbering g).lt hmem
    have hnode : g.nodes[id]? = some g.nodes[id] := Array.getElem?_eq_getElem hlt
    refine ⟨g.nodes[id], g.nodes[id].map g.numbering.renumber, hnode, ?_, ?_⟩
    · rw [Persisted.toGraph, List.getElem?_toArray, getElem?_nodes_encode_of_place hk, hnode]
      rfl
    · refine Node.matches_map fun v hv => matches_renumber fun c hc => ?_
      subst hc
      exact mem_order_of_child hmem hnode hv (hg.nodes _ (Array.mem_of_getElem? hnode) _ hv)
  -- The same goes for what the roots refer to.
  · change Entries.Matches _ g.roots.entries (g.roots.map g.numbering.renumber).entries
    rw [Entries.Matches, Dict.map, List.forall₂_map_right_iff, List.forall₂_same]
    intro e he
    have hv : e.2 ∈ g.roots.values := List.mem_map_of_mem he
    refine ⟨rfl, matches_renumber fun id hid => ?_⟩
    rw [hid] at hv
    exact mem_order_of_root hv (hg.roots _ hv)

/-- A written form is its own written form. -/
theorem encode_toGraph_encode (hg : g.WellFormed) : g.encode.toGraph.encode = g.encode :=
  (encode_eq_of_matches (matches_encode hg)).symm

/-- Two graphs have one written form exactly if they match. -/
theorem encode_eq_encode_iff (hg : g.WellFormed) (hh : h.WellFormed) :
    g.encode = h.encode ↔ ∃ ρ, g.Matches ρ h := by
  constructor
  · intro heq
    have hmatch := matches_encode hg
    rw [heq] at hmatch
    exact ⟨_, hmatch.trans (matches_encode hh).symm⟩
  · rintro ⟨ρ, hmatch⟩
    exact encode_eq_of_matches hmatch

/-! ## Compaction -/

theorem compact_eq (g : Graph) : g.compact.1 = g ∨ g.compact.1 = g.encode.toGraph := by
  rw [compact]
  by_cases hlen : g.encode.nodes.length = g.nodes.size
  · exact .inl (by rw [if_pos hlen])
  · exact .inr (by rw [if_neg hlen, Persisted.toGraph])

theorem wellFormed_compact (hg : g.WellFormed) : g.compact.1.WellFormed := by
  rcases compact_eq g with heq | heq
  · rw [heq]
    exact hg
  · rw [heq]
    exact wellFormed_encode g

theorem encode_compact (hg : g.WellFormed) : g.compact.1.encode = g.encode := by
  rcases compact_eq g with heq | heq
  · rw [heq]
  · rw [heq]
    exact encode_toGraph_encode hg

end Graph

end ActionChain
