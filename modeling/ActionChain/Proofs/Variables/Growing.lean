import ActionChain.Proofs.Variables.Rendering

/-!
# Trees Come Out as They Went In

What copying a JSON tree into an arena adds, and what it leaves.

Nodes are only added, so whatever an arena was good for before it grew it is
good for afterwards. The old arena matches the new one if every old position is
its own partner, and values that match have one tree: a value from before keeps
its tree, even if the nodes below it are shared or run in circles.

The value that stands for the new tree leads back to it. Children are added
before their parent, so below a fresh node the positions fall, and no circle
can close; and there are fewer levels than fresh nodes, so the walk does not run
out. All that is lost on the way is what a floating-point number cannot hold.

## Main definitions

* `Json.stored`: a tree with its numbers as a variable keeps them.
* `Arena.Grows`: every node stays in its place.

## Theorems

* `Arena.grows_importJson`: importing adds nodes only.
* `Arena.walk_importJson`: a tree that was copied in comes out as it went in.
* `Graph.toJson_importJson_of_inside`: importing keeps the tree of every value
  from before.
* `Graph.toJson_importJson`: the value that stands for a tree has that tree.
-/

namespace ActionChain

/-- The tree with every number as a variable keeps it. -/
def Json.stored (j : Json) : Json := j.mapNumbers fun n => Value.numberJson n.toBinary64

/-! ## Growing -/

/-- Every position below a size is its own partner, and no other. -/
def Arena.Stays (size a b : Nat) : Prop := a = b ∧ a < size

theorem Value.Matches.stays {size : Nat} {v : Value} (hv : v.Inside size) :
    v.Matches (Arena.Stays size) v := by
  cases v with
  | null => exact .null
  | bool b => exact .bool b
  | number x => exact .number x
  | text s => exact .text s
  | ref id => exact .ref ⟨rfl, hv⟩

namespace Arena

/-- Every node of an arena stands in the other, in the same place. -/
def Grows (ns ms : Array Node) : Prop :=
  ∀ (id : Nat) (node : Node), ns[id]? = some node → ms[id]? = some node

namespace Grows

variable {ns ms os : Array Node}

theorem refl (ns : Array Node) : Grows ns ns := fun _ _ h => h

theorem trans (h : Grows ns ms) (h' : Grows ms os) : Grows ns os :=
  fun id node hnode => h' id node (h id node hnode)

theorem push (ns : Array Node) (node : Node) : Grows ns (ns.push node) := by
  intro id old hold
  have hlt : id < ns.size := (Array.getElem?_eq_some_iff.1 hold).1
  rw [Array.getElem?_push_lt hlt, ← Array.getElem?_eq_getElem]
  exact hold

theorem size_le (h : Grows ns ms) : ns.size ≤ ms.size := by
  by_contra hlt
  -- The first node too many would have to stand behind the end of the other arena.
  have hin : ms.size < ns.size := by omega
  have hkept := h ms.size ns[ms.size] (Array.getElem?_eq_getElem hin)
  rw [Array.getElem?_eq_none (Nat.le_refl _)] at hkept
  cases hkept

/-- A closed arena matches whatever it grows into. -/
theorem matches_stays (h : Grows ns ms) (hns : Closed ns) : Matches (Stays ns.size) ns ms := by
  refine ⟨⟨?_, ?_⟩, ?_⟩
  · rintro a a' b ⟨rfl, -⟩ ⟨rfl, -⟩
    rfl
  · rintro a b b' ⟨rfl, -⟩ ⟨rfl, -⟩
    rfl
  · rintro a b ⟨rfl, hin⟩
    have hnode := Array.getElem?_eq_getElem hin
    have hchildren := hns ns[a] (Array.getElem_mem hin)
    refine ⟨_, _, hnode, h a _ hnode, ?_⟩
    -- The node is its own partner because everything it holds lies inside.
    cases hn : ns[a] with
    | object fields =>
        rw [hn] at hchildren
        refine .object (List.forall₂_same.2 fun e he => ⟨rfl, .stays ?_⟩)
        exact hchildren e.2 (List.mem_map_of_mem he)
    | list items =>
        rw [hn] at hchildren
        exact .list (List.forall₂_same.2 fun v hv => .stays (hchildren v hv))

end Grows

mutual

/-- Importing adds nodes only. -/
theorem grows_importJson : ∀ (j : Json) (nodes : Array Node), Grows nodes (importJson nodes j).1
  | .null, nodes => .refl nodes
  | .bool _, nodes => .refl nodes
  | .number _, nodes => .refl nodes
  | .string _, nodes => .refl nodes
  | .array items, nodes => (grows_importItems items nodes).trans (.push _ _)
  | .object members, nodes => (grows_importMembers members nodes).trans (.push _ _)

theorem grows_importItems : ∀ (items : List Json) (nodes : Array Node),
    Grows nodes (importItems nodes items).1
  | [], nodes => .refl nodes
  | item :: rest, nodes => (grows_importJson item nodes).trans (grows_importItems rest _)

theorem grows_importMembers : ∀ (members : List (String × Json)) (nodes : Array Node),
    Grows nodes (importMembers nodes members).1
  | [], nodes => .refl nodes
  | (_, json) :: rest, nodes => (grows_importJson json nodes).trans (grows_importMembers rest _)

end

/-! ## Out again -/

/-- A node behind the nodes of the path is entered. -/
theorem walk_fresh {nodes ms : Array Node} {node : Node} (hgrows : Grows (nodes.push node) ms)
    {path : List Nat} (hpath : ∀ id ∈ path, nodes.size < id) (fuel : Nat) :
    walk ms (fuel + 1) path (.ref nodes.size) =
      match node with
      | .object fields =>
        .object (fields.entries.map fun e => (e.1, walk ms fuel (nodes.size :: path) e.2))
      | .list items => .array (items.map (walk ms fuel (nodes.size :: path))) := by
  have hfresh : nodes.size ∉ path := fun hmem => Nat.lt_irrefl _ (hpath _ hmem)
  simp only [walk, if_neg hfresh, hgrows _ node Array.getElem?_push_size]
  cases node <;> rfl

theorem keys_importMembers (members : List (String × Json)) (nodes : Array Node) :
    (importMembers nodes members).2.map Prod.fst = members.map Prod.fst := by
  induction members generalizing nodes with
  | nil => rfl
  | cons head rest ih => exact congrArg (head.1 :: ·) (ih _)

/-- Imported members in ascending order are their own dictionary. -/
theorem entries_importMembers {members : List (String × Json)}
    (h : Entries.Ascending members) (nodes : Array Node) :
    (Dict.ofList (importMembers nodes members).2).entries = (importMembers nodes members).2 := by
  rw [Json.ascending_iff_keys, ← keys_importMembers members nodes, ← Json.ascending_iff_keys] at h
  exact Entries.ofList_of_ascending h

mutual

/-- A tree that was copied in comes out as it went in, wherever the arena grew
meanwhile: below nodes that came later, and with as much fuel as there are fresh
nodes. -/
theorem walk_importJson : ∀ (j : Json) {nodes ms : Array Node} {fuel : Nat} {path : List Nat},
    j.Ordered → Grows (importJson nodes j).1 ms →
    (∀ id ∈ path, (importJson nodes j).1.size ≤ id) →
    (importJson nodes j).1.size ≤ fuel + nodes.size →
    walk ms fuel path (importJson nodes j).2 = j.stored
  | .null, _, _, _, _, _, _, _, _ => by simp [importJson, walk, Json.stored, Json.mapNumbers]
  | .bool _, _, _, _, _, _, _, _, _ => by simp [importJson, walk, Json.stored, Json.mapNumbers]
  | .number _, _, _, _, _, _, _, _, _ => by
      simp [importJson, walk, Json.stored, Json.mapNumbers, Value.ofNumber]
  | .string _, _, _, _, _, _, _, _, _ => by simp [importJson, walk, Json.stored, Json.mapNumbers]
  | .array items, nodes, ms, fuel, path, hordered, hgrows, hpath, hfuel => by
      simp only [importJson, Array.size_push] at hgrows hpath hfuel ⊢
      have hsize := (grows_importItems items nodes).size_le
      -- One unit of fuel goes for the list itself, which came behind all it holds.
      rcases Nat.exists_eq_add_of_lt (by omega : 0 < fuel) with ⟨fuel, rfl⟩
      rw [Nat.zero_add, walk_fresh hgrows hpath]
      refine congrArg Json.array (walk_importItems items hordered ((Grows.push _ _).trans hgrows)
        (List.forall_mem_cons.2 ⟨Nat.le_refl _, fun id hid => ?_⟩) (by omega))
      exact Nat.le_of_lt (hpath id hid)
  | .object members, nodes, ms, fuel, path, hordered, hgrows, hpath, hfuel => by
      simp only [importJson, Array.size_push] at hgrows hpath hfuel ⊢
      have hsize := (grows_importMembers members nodes).size_le
      rcases Nat.exists_eq_add_of_lt (by omega : 0 < fuel) with ⟨fuel, rfl⟩
      rw [Nat.zero_add, walk_fresh hgrows hpath]
      simp only [entries_importMembers hordered.1]
      refine congrArg Json.object (walk_importMembers members hordered.2
        ((Grows.push _ _).trans hgrows)
        (List.forall_mem_cons.2 ⟨Nat.le_refl _, fun id hid => ?_⟩) (by omega))
      exact Nat.le_of_lt (hpath id hid)

theorem walk_importItems : ∀ (items : List Json) {nodes ms : Array Node} {fuel : Nat}
    {path : List Nat}, Json.OrderedItems items → Grows (importItems nodes items).1 ms →
    (∀ id ∈ path, (importItems nodes items).1.size ≤ id) →
    (importItems nodes items).1.size ≤ fuel + nodes.size →
    (importItems nodes items).2.map (walk ms fuel path) =
      Json.mapItems (fun n => Value.numberJson n.toBinary64) items
  | [], _, _, _, _, _, _, _, _ => rfl
  | item :: rest, nodes, ms, fuel, path, hordered, hgrows, hpath, hfuel => by
      simp only [importItems] at hgrows hpath hfuel ⊢
      have hrest := grows_importItems rest (importJson nodes item).1
      have hle := (grows_importJson item nodes).size_le
      have hle' := hrest.size_le
      -- What the other items add does not matter to the first, nor the other way round.
      rw [List.map_cons, Json.mapItems]
      refine congrArg₂ List.cons ?_ ?_
      · exact walk_importJson item hordered.1 (hrest.trans hgrows)
          (fun id hid => Nat.le_trans hle' (hpath id hid)) (by omega)
      · exact walk_importItems rest hordered.2 hgrows hpath (by omega)

theorem walk_importMembers : ∀ (members : List (String × Json)) {nodes ms : Array Node}
    {fuel : Nat} {path : List Nat}, Json.OrderedMembers members →
    Grows (importMembers nodes members).1 ms →
    (∀ id ∈ path, (importMembers nodes members).1.size ≤ id) →
    (importMembers nodes members).1.size ≤ fuel + nodes.size →
    (importMembers nodes members).2.map (fun e => (e.1, walk ms fuel path e.2)) =
      Json.mapMembers (fun n => Value.numberJson n.toBinary64) members
  | [], _, _, _, _, _, _, _, _ => rfl
  | (key, json) :: rest, nodes, ms, fuel, path, hordered, hgrows, hpath, hfuel => by
      simp only [importMembers] at hgrows hpath hfuel ⊢
      have hrest := grows_importMembers rest (importJson nodes json).1
      have hle := (grows_importJson json nodes).size_le
      have hle' := hrest.size_le
      rw [List.map_cons, Json.mapMembers]
      refine congrArg₂ List.cons (congrArg (key, ·) ?_) ?_
      · exact walk_importJson json hordered.1 (hrest.trans hgrows)
          (fun id hid => Nat.le_trans hle' (hpath id hid)) (by omega)
      · exact walk_importMembers rest hordered.2 hgrows hpath (by omega)

end

end Arena

namespace Graph

/-- Importing keeps the tree of every value from before. -/
theorem toJson_importJson_of_inside {g : Graph} (hg : g.WellFormed) (j : Json) {v : Value}
    (hv : v.Inside g.nodes.size) : (g.importJson j).1.toJson v = g.toJson v := by
  have hmatches := (Arena.grows_importJson j g.nodes).matches_stays hg.nodes
  exact (Arena.walk_eq_of_matches hmatches (.stays hv) .nil List.nodup_nil List.nodup_nil
    (by simp) (by simp [importJson])).symm

/-- The value that stands for a tree has that tree. -/
theorem toJson_importJson (g : Graph) {j : Json} (hj : j.Ordered) :
    (g.importJson j).1.toJson (g.importJson j).2 = j.stored :=
  Arena.walk_importJson j hj (.refl _) nofun (by simp only [importJson]; omega)

end Graph

end ActionChain
