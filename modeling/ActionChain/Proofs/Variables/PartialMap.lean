import ActionChain.Json.Source
import ActionChain.Proofs.Variables.Canonical

/-!
# Maps That May Fail

Replacing every value of a dictionary, a node or a written form by an image
that may not exist.

The answer is all or nothing. If every value has an image, the whole has one,
and it is the map under any total function that agrees; if one value has none,
neither has the whole. Reading a file is such a map, and so is a walk that
trusts its references.

## Main definitions

* `Dict.mapM?`, `Node.mapM?`, `Persisted.mapM?`: the maps.
* `Persisted.values`: every value a written form holds.

## Theorems

* `Dict.mapM?_eq_some`, `Node.mapM?_eq_some`, `Persisted.mapM?_eq_some`: all.
* `Dict.mapM?_eq_none`, `Node.mapM?_eq_none`, `Persisted.mapM?_eq_none`: nothing.
* `Persisted.map_eq_self_iff`: a map changes nothing exactly if it keeps every
  value.
-/

namespace ActionChain

section Lists

variable {α β : Type} {f : α → Option β} {f' : α → β} {xs : List α}

theorem mapM_eq_some_map (h : ∀ x ∈ xs, f x = some (f' x)) : xs.mapM f = some (xs.map f') := by
  induction xs with
  | nil => rfl
  | cons x rest ih =>
      rw [List.mapM_cons, h x List.mem_cons_self, ih fun y hy => h y (List.mem_cons_of_mem _ hy)]
      rfl

theorem mapM_eq_none {x : α} (hx : x ∈ xs) (h : f x = none) : xs.mapM f = none := by
  induction xs with
  | nil => exact absurd hx List.not_mem_nil
  | cons y rest ih =>
      rw [List.mapM_cons]
      rcases List.mem_cons.1 hx with heq | hrest
      · rw [← heq, h]
        rfl
      · rw [ih hrest]
        cases f y <;> rfl

theorem mapM_eq_some_iff {ys : List β} :
    xs.mapM f = some ys ↔ List.Forall₂ (fun x y => f x = some y) xs ys := by
  induction xs generalizing ys with
  | nil =>
      rw [List.mapM_nil, List.forall₂_nil_left_iff]
      exact ⟨fun h => (Option.some.inj h).symm, fun h => congrArg some h.symm⟩
  | cons x rest ih =>
      simp only [List.mapM_cons, Option.bind_eq_bind, Option.bind_eq_some_iff, Option.pure_def,
        Option.some.injEq, List.forall₂_cons_left_iff, ih]
      constructor
      · rintro ⟨y, hy, others, hothers, rfl⟩
        exact ⟨y, others, hy, hothers, rfl⟩
      · rintro ⟨y, others, hy, hothers, rfl⟩
        exact ⟨y, hy, others, hothers, rfl⟩

theorem exists_of_mem_mapM {ys : List β} (h : xs.mapM f = some ys) {y : β} (hy : y ∈ ys) :
    ∃ x ∈ xs, f x = some y := by
  induction mapM_eq_some_iff.1 h with
  | nil => exact absurd hy List.not_mem_nil
  | @cons x y' xs ys hx hrest ih =>
      rcases List.mem_cons.1 hy with rfl | hy
      · exact ⟨x, List.mem_cons_self, hx⟩
      · rcases ih (mapM_eq_some_iff.2 hrest) hy with ⟨x', hx', hfound⟩
        exact ⟨x', List.mem_cons_of_mem x hx', hfound⟩

end Lists

/-! ## Dictionaries -/

namespace Dict

variable {α β : Type} {f : α → Option β} {f' : α → β} {d : Dict String α}

/-- The dictionary with every value replaced by its image, if all have one. -/
def mapM? (f : α → Option β) (d : Dict String α) : Option (Dict String β) :=
  (d.entries.mapM fun e => (f e.2).map (e.1, ·)).map ofList

theorem mapM?_eq_some (h : ∀ v ∈ d.values, f v = some (f' v)) : d.mapM? f = some (d.map f') := by
  have hentries : (d.entries.mapM fun e => (f e.2).map (e.1, ·))
      = some (d.entries.map fun e => (e.1, f' e.2)) := by
    refine mapM_eq_some_map fun e he => ?_
    rw [h e.2 (List.mem_map_of_mem he)]
    rfl
  rw [mapM?, hentries, Option.map_some, Option.some.injEq]
  exact ext_entries (Entries.ofList_of_ascending (d.map f').ascending)

theorem mapM?_eq_none {v : α} (hv : v ∈ d.values) (h : f v = none) : d.mapM? f = none := by
  rcases List.mem_map.1 hv with ⟨e, he, rfl⟩
  rw [mapM?, mapM_eq_none he (by rw [h]; rfl)]
  rfl

/-- A map changes nothing exactly if it keeps every value. -/
theorem map_eq_self_iff {f' : α → α} : d.map f' = d ↔ ∀ v ∈ d.values, f' v = v := by
  constructor
  · intro h v hv
    rcases List.mem_map.1 hv with ⟨e, he, rfl⟩
    have hentries : d.entries.map (fun e => (e.1, f' e.2)) = d.entries := congrArg Dict.entries h
    have hsame := List.map_inj_left.1 (hentries.trans (List.map_id _).symm) e he
    exact congrArg Prod.snd hsame
  · intro h
    apply ext_entries
    refine Eq.trans (List.map_congr_left fun e he => ?_) (List.map_id _)
    exact Prod.ext rfl (h e.2 (List.mem_map_of_mem he))

end Dict

/-! ## Nodes -/

namespace Node

variable {f : Value → Option Value} {f' : Value → Value} {node : Node}

/-- The node with every value it holds replaced by its image, if all have one. -/
def mapM? (f : Value → Option Value) : Node → Option Node
  | .object fields => (fields.mapM? f).map .object
  | .list items => (items.mapM f).map .list

theorem mapM?_eq_some (h : ∀ v ∈ node.children, f v = some (f' v)) :
    node.mapM? f = some (node.map f') := by
  cases node with
  | object fields => rw [mapM?, Dict.mapM?_eq_some h, Option.map_some, map]
  | list items =>
      have hitems : items.mapM f = some (items.map f') := mapM_eq_some_map h
      rw [mapM?, hitems, Option.map_some, map]

theorem mapM?_eq_none {v : Value} (hv : v ∈ node.children) (h : f v = none) :
    node.mapM? f = none := by
  cases node with
  | object fields => rw [mapM?, Dict.mapM?_eq_none hv h, Option.map_none]
  | list items =>
      have hitems : items.mapM f = none := mapM_eq_none hv h
      rw [mapM?, hitems, Option.map_none]

theorem map_eq_self_iff : node.map f' = node ↔ ∀ v ∈ node.children, f' v = v := by
  cases node with
  | object fields =>
      rw [map, Node.object.injEq]
      exact Dict.map_eq_self_iff
  | list items =>
      rw [map, Node.list.injEq]
      constructor
      · intro h
        exact List.map_inj_left.1 (h.trans (List.map_id _).symm)
      · intro h
        exact (List.map_congr_left h).trans (List.map_id _)

end Node

/-! ## Written forms -/

namespace Persisted

variable {f : Value → Option Value} {f' : Value → Value} {p : Persisted}

/-- Every value a written form holds: the roots, then what the nodes hold. -/
def values (p : Persisted) : List Value := p.roots.values ++ p.nodes.flatMap Node.children

/-- The written form with every value replaced by its image. -/
def map (f' : Value → Value) (p : Persisted) : Persisted :=
  ⟨p.roots.map f', p.nodes.map (Node.map f')⟩

/-- The written form with every value replaced by its image, if all have one. -/
def mapM? (f : Value → Option Value) (p : Persisted) : Option Persisted := do
  let roots ← p.roots.mapM? f
  let nodes ← p.nodes.mapM (Node.mapM? f)
  pure ⟨roots, nodes⟩

theorem mem_values_of_node {node : Node} (hnode : node ∈ p.nodes) {v : Value}
    (hv : v ∈ node.children) : v ∈ p.values :=
  List.mem_append_right _ (List.mem_flatMap.2 ⟨node, hnode, hv⟩)

theorem mapM?_eq_some (h : ∀ v ∈ p.values, f v = some (f' v)) : p.mapM? f = some (p.map f') := by
  have hroots : p.roots.mapM? f = some (p.roots.map f') :=
    Dict.mapM?_eq_some fun v hv => h v (List.mem_append_left _ hv)
  have hnodes : p.nodes.mapM (Node.mapM? f) = some (p.nodes.map (Node.map f')) :=
    mapM_eq_some_map fun node hnode => Node.mapM?_eq_some fun v hv =>
      h v (mem_values_of_node hnode hv)
  rw [mapM?, hroots, hnodes]
  rfl

theorem mapM?_eq_none {v : Value} (hv : v ∈ p.values) (h : f v = none) : p.mapM? f = none := by
  rcases List.mem_append.1 hv with hv | hv
  · rw [mapM?, Dict.mapM?_eq_none hv h]
    rfl
  · rcases List.mem_flatMap.1 hv with ⟨node, hnode, hv⟩
    rw [mapM?, mapM_eq_none hnode (Node.mapM?_eq_none hv h)]
    cases p.roots.mapM? f <;> rfl

/-- A map changes nothing exactly if it keeps every value. -/
theorem map_eq_self_iff : p.map f' = p ↔ ∀ v ∈ p.values, f' v = v := by
  have hparts : p.map f' = p ↔ p.roots.map f' = p.roots ∧ p.nodes.map (Node.map f') = p.nodes := by
    cases p
    rw [map, Persisted.mk.injEq]
  rw [hparts, Dict.map_eq_self_iff]
  constructor
  · rintro ⟨hroots, hnodes⟩ v hv
    rcases List.mem_append.1 hv with hv | hv
    · exact hroots v hv
    · rcases List.mem_flatMap.1 hv with ⟨node, hnode, hv⟩
      have hsame := List.map_inj_left.1 (hnodes.trans (List.map_id _).symm) node hnode
      exact Node.map_eq_self_iff.1 hsame v hv
  · intro h
    refine ⟨fun v hv => h v (List.mem_append_left _ hv), ?_⟩
    refine Eq.trans (List.map_congr_left fun node hnode => ?_) (List.map_id _)
    exact Node.map_eq_self_iff.2 fun v hv => h v (mem_values_of_node hnode hv)

end Persisted

end ActionChain
