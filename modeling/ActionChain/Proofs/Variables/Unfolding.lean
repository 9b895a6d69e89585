import ActionChain.Proofs.Json.Nesting
import ActionChain.Proofs.Variables.Equality
import ActionChain.Proofs.Variables.RoundTrip

/-!
# Unfolding

What showing a value comes to, said without fuel.

A value unfolds to a tree below the nodes that are being written out around it. A
reference to one of these closes a circle and is only marked; any other reference is
followed and its node written out in full, also if that was done before somewhere
else. So whether a reference is marked depends on the way down to it and on nothing
that was written to the left of it.

No node stands on a way twice, which is why unfolding comes to an end: a way has at
most as many nodes as the arena, and so has the nesting of the tree. Every value that
leads nowhere outside unfolds to exactly one tree, and the walk finds it, with any
fuel that exceeds the arena. A tree is found in every graph in which the nodes below
the value are the same, whatever else there is and however large the arena.

## Main definitions

* `Graph.Unfolds`: a value unfolds to a tree.
* `Graph.Place`: a value stands somewhere in the unfolding of another.

## Theorems

* `Graph.Unfolds.walk_eq`, `Graph.unfolds_walk`: the walk finds the tree.
* `Graph.Place.unfolds`: what is written at a place, and the nodes around it.
* `Graph.Unfolds.fits`: the nesting of the tree.
* `Graph.Unfolds.congr`: only the nodes below a value matter.
* `Graph.unfolds_toJson_iff`: all of this about the tree that is shown.
-/

namespace ActionChain

open Relation (ReflTransGen)

namespace Graph

section

variable (g : Graph)

/-- Below the nodes of a path, a value unfolds to a tree. The path holds the nodes
that are being written out around the value, the innermost first. -/
inductive Unfolds : (path : List Nat) → Value → Json → Prop where
  | null (path : List Nat) : Unfolds path .null .null
  | bool (path : List Nat) (b : Bool) : Unfolds path (.bool b) (.bool b)
  | number (path : List Nat) (x : Binary64) : Unfolds path (.number x) (Value.numberJson x)
  | text (path : List Nat) (s : String) : Unfolds path (.text s) (.string s)
  /-- A reference to a node of the path is marked and not followed. -/
  | circle {path : List Nat} {id : Nat} (hin : id ∈ path) :
      Unfolds path (.ref id) (.string "[Circular]")
  /-- Any other list is written out, each item by its tree. -/
  | list {path : List Nat} {id : Nat} {vs : List Value} (tree : Value → Json) (hfresh : id ∉ path)
      (hnode : g.nodes[id]? = some (.list vs))
      (hbelow : ∀ v ∈ vs, Unfolds (id :: path) v (tree v)) :
      Unfolds path (.ref id) (.array (vs.map tree))
  /-- And so is any other object, under the same keys. -/
  | object {path : List Nat} {id : Nat} {fields : Dict String Value} (tree : Value → Json)
      (hfresh : id ∉ path) (hnode : g.nodes[id]? = some (.object fields))
      (hbelow : ∀ v ∈ fields.values, Unfolds (id :: path) v (tree v)) :
      Unfolds path (.ref id) (.object (fields.entries.map fun e => (e.1, tree e.2)))

/-- In the unfolding of a value, a value stands below the nodes of a path and is
written as a part of the tree. -/
inductive Place (root : Value) : (path : List Nat) → Value → Json → Prop where
  | whole : Place root [] root (g.toJson root)
  | item {path : List Nat} {id : Nat} {items : List Json} {vs : List Value} {v : Value} {j : Json}
      (houter : Place root path (.ref id) (.array items))
      (hnode : g.nodes[id]? = some (.list vs)) (hmem : (v, j) ∈ vs.zip items) :
      Place root (id :: path) v j
  | member {path : List Nat} {id : Nat} {members : List (String × Json)}
      {fields : Dict String Value} {e : String × Value} {m : String × Json}
      (houter : Place root path (.ref id) (.object members))
      (hnode : g.nodes[id]? = some (.object fields)) (hmem : (e, m) ∈ fields.entries.zip members) :
      Place root (id :: path) e.2 m.2

end

variable {g : Graph} {path : List Nat} {v : Value} {j : Json}

/-! ## The walk finds the tree -/

/-- A walk that lasts finds the tree that a value unfolds to. -/
theorem Unfolds.walk_eq (h : g.Unfolds path v j) {fuel : Nat}
    (hlasts : Arena.Lasts g.nodes.size fuel path) : Arena.walk g.nodes fuel path v = j := by
  induction h generalizing fuel with
  | circle hin =>
      rcases hlasts.exists_fuel with ⟨fuel, rfl⟩
      simp only [Arena.walk, if_pos hin]
  | list tree hfresh hnode _ ih =>
      rcases hlasts.exists_fuel with ⟨fuel, rfl⟩
      have hentered := hlasts.enter (Array.getElem?_eq_some_iff.1 hnode).1 hfresh
      simp only [Arena.walk, if_neg hfresh, hnode]
      exact congrArg Json.array (List.map_congr_left fun v hv => ih v hv hentered)
  | object tree hfresh hnode _ ih =>
      rcases hlasts.exists_fuel with ⟨fuel, rfl⟩
      have hentered := hlasts.enter (Array.getElem?_eq_some_iff.1 hnode).1 hfresh
      simp only [Arena.walk, if_neg hfresh, hnode]
      refine congrArg Json.object (List.map_congr_left fun e he => ?_)
      exact congrArg (e.1, ·) (ih e.2 (List.mem_map_of_mem he) hentered)
  | _ => cases fuel <;> rfl

/-- Where no node refers outside, a walk that lasts unfolds the value. -/
theorem unfolds_walk (hclosed : Arena.Closed g.nodes) {fuel : Nat}
    (hv : v.Inside g.nodes.size) (hlasts : Arena.Lasts g.nodes.size fuel path) :
    g.Unfolds path v (Arena.walk g.nodes fuel path v) := by
  induction fuel generalizing path v with
  | zero =>
      rcases hlasts.exists_fuel with ⟨k, hk⟩
      omega
  | succ fuel ih =>
      cases v with
      | null => exact .null path
      | bool b => exact .bool path b
      | number x => exact .number path x
      | text s => exact .text path s
      | ref id =>
          simp only [Arena.walk]
          by_cases hin : id ∈ path
          · rw [if_pos hin]
            exact .circle hin
          · have hnode := Array.getElem?_eq_getElem hv
            have hbelow : ∀ u ∈ g.nodes[id].children,
                g.Unfolds (id :: path) u (Arena.walk g.nodes fuel (id :: path) u) := fun u hu =>
              ih (hclosed _ (Array.getElem_mem hv) u hu) (hlasts.enter hv hin)
            rw [if_neg hin, hnode]
            cases hn : g.nodes[id] with
            | list vs =>
                rw [hn] at hnode hbelow
                exact .list _ hin hnode hbelow
            | object fields =>
                rw [hn] at hnode hbelow
                exact .object _ hin hnode hbelow

/-! ## Places -/

/-- A reference is marked exactly if it leads back into the path. -/
theorem Unfolds.eq_mark_iff {id : Nat} (h : g.Unfolds path (.ref id) j) :
    j = .string "[Circular]" ↔ id ∈ path := by
  cases h with
  | circle hin => simp [hin]
  | list tree hfresh => simp [hfresh]
  | object tree hfresh => simp [hfresh]

/-- A part of what is written item by item is what its own item is written as. -/
theorem of_mem_zip_map {α β : Type} {f : α → β} {a : α} {b : β} {as : List α}
    (h : (a, b) ∈ as.zip (as.map f)) : a ∈ as ∧ b = f a := by
  rw [← List.map_prod_left_eq_zip] at h
  rcases List.mem_map.1 h with ⟨_, hmem, ⟨⟩⟩
  exact ⟨hmem, rfl⟩

/-- At every place of an unfolding stands what the value there unfolds to, below
different nodes. -/
theorem Place.unfolds {root : Value} (hg : g.WellFormed) (hroot : root.Inside g.nodes.size)
    (h : g.Place root path v j) :
    g.Unfolds path v j ∧ path.Nodup ∧ ∀ id ∈ path, id < g.nodes.size := by
  induction h with
  | whole => exact ⟨unfolds_walk hg.nodes hroot (.start _), List.nodup_nil, nofun⟩
  | item _ hnode hmem ih =>
      rcases ih with ⟨hunfolds, hnodup, hlt⟩
      cases hunfolds with
      | list tree hfresh hnode' hbelow =>
          cases hnode.symm.trans hnode'
          rcases of_mem_zip_map hmem with ⟨hv, rfl⟩
          refine ⟨hbelow _ hv, List.nodup_cons.2 ⟨hfresh, hnodup⟩, List.forall_mem_cons.2 ⟨?_, hlt⟩⟩
          exact (Array.getElem?_eq_some_iff.1 hnode).1
  | member _ hnode hmem ih =>
      rcases ih with ⟨hunfolds, hnodup, hlt⟩
      cases hunfolds with
      | object tree hfresh hnode' hbelow =>
          cases hnode.symm.trans hnode'
          rcases of_mem_zip_map hmem with ⟨he, rfl⟩
          refine ⟨hbelow _ (List.mem_map_of_mem he), List.nodup_cons.2 ⟨hfresh, hnodup⟩,
            List.forall_mem_cons.2 ⟨?_, hlt⟩⟩
          exact (Array.getElem?_eq_some_iff.1 hnode).1

/-! ## Nesting -/

/-- A tree is nested at most as deep as there are nodes left to enter. -/
theorem Unfolds.fits (h : g.Unfolds path v j) {fuel : Nat}
    (hlasts : Arena.Lasts g.nodes.size (fuel + 1) path) : j.Fits fuel := by
  induction h generalizing fuel with
  | number path x => cases x <;> trivial
  | list tree hfresh hnode _ ih =>
      have hentered := hlasts.enter (Array.getElem?_eq_some_iff.1 hnode).1 hfresh
      rcases hentered.exists_fuel with ⟨fuel, rfl⟩
      refine ⟨Nat.succ_pos fuel, Json.fitsItems_iff.2 fun j hj => ?_⟩
      rcases List.mem_map.1 hj with ⟨v, hv, rfl⟩
      exact ih v hv hentered
  | object tree hfresh hnode _ ih =>
      have hentered := hlasts.enter (Array.getElem?_eq_some_iff.1 hnode).1 hfresh
      rcases hentered.exists_fuel with ⟨fuel, rfl⟩
      refine ⟨Nat.succ_pos fuel, Json.fitsMembers_iff.2 fun m hm => ?_⟩
      rcases List.mem_map.1 hm with ⟨e, he, rfl⟩
      exact ih e.2 (List.mem_map_of_mem he) hentered
  | _ => trivial

/-! ## Only what is below matters -/

/-- A tree is found in every graph that has the same nodes below the value. -/
theorem Unfolds.congr {h : Graph} (hunfolds : g.Unfolds path v j)
    (hsame : ∀ id, ReflTransGen g.Child (.ref id) v → h.nodes[id]? = g.nodes[id]?) :
    h.Unfolds path v j := by
  induction hunfolds with
  | null path => exact .null path
  | bool path b => exact .bool path b
  | number path x => exact .number path x
  | text path s => exact .text path s
  | circle hin => exact .circle hin
  | list tree hfresh hnode _ ih =>
      refine .list tree hfresh ((hsame _ .refl).trans hnode) fun v hv => ?_
      exact ih v hv fun id hid => hsame id (hid.tail (.of_mem hnode hv))
  | object tree hfresh hnode _ ih =>
      refine .object tree hfresh ((hsame _ .refl).trans hnode) fun v hv => ?_
      exact ih v hv fun id hid => hsame id (hid.tail (.of_mem hnode hv))

/-! ## What is shown -/

/-- The tree that a value is shown as.

It is the one tree that the value unfolds to, and the walk finds it with any fuel that
exceeds the arena. At every place in it, a reference is marked exactly if it leads back
to one of the nodes written out around it, which are all different; every other
reference is written out in full, wherever else it is written out as well. So the tree
is nested at most as deep as there are nodes. And what is shown, as a tree and in a
message, is the same in every graph that has the same nodes below the value. -/
theorem unfolds_toJson_iff (hg : g.WellFormed) (hv : v.Inside g.nodes.size) :
    (∀ j, g.Unfolds [] v j ↔ j = g.toJson v) ∧
    (∀ fuel, g.nodes.size < fuel → Arena.walk g.nodes fuel [] v = g.toJson v) ∧
    (∀ path u j, g.Place v path u j →
      g.Unfolds path u j ∧ (∀ id, u = .ref id → (j = .string "[Circular]" ↔ id ∈ path)) ∧
        path.Nodup ∧ path.length ≤ g.nodes.size) ∧
    (g.toJson v).Fits g.nodes.size ∧
    ∀ h : Graph, (∀ id, ReflTransGen g.Child (.ref id) v → h.nodes[id]? = g.nodes[id]?) →
      h.toJson v = g.toJson v ∧ h.display v = g.display v := by
  have hunfolds : g.Unfolds [] v (g.toJson v) := unfolds_walk hg.nodes hv (.start _)
  refine ⟨fun j => ⟨fun h => (h.walk_eq (.start _)).symm, fun h => h ▸ hunfolds⟩,
    fun fuel hfuel => ?_, fun path u j hplace => ?_, ?_, fun h hsame => ?_⟩
  · exact hunfolds.walk_eq ⟨List.nodup_nil, nofun, hfuel⟩
  · rcases hplace.unfolds hg hv with ⟨hu, hnodup, hlt⟩
    refine ⟨hu, fun id hid => ?_, hnodup, length_le_of_nodup_of_lt hnodup hlt⟩
    subst hid
    exact hu.eq_mark_iff
  · exact hunfolds.fits (.start _)
  · have htree : h.toJson v = g.toJson v := (hunfolds.congr hsame).walk_eq (.start _)
    refine ⟨htree, ?_⟩
    cases v with
    | ref id => exact congrArg Json.toText htree
    | _ => rfl

/-- From the list, only the object and the list itself can be reached. -/
theorem ring_below {u : Value} (h : ReflTransGen ring.Child u (.ref 2)) :
    ∀ id, u = .ref id → id = 1 ∨ id = 2 := by
  induction h using ReflTransGen.head_induction_on with
  | refl => simp
  | head hchild _ ih =>
      rcases hchild with ⟨id, node, rfl, hnode, hmem⟩
      -- Whatever holds the node before is itself held by the object or the list.
      rcases ih id rfl with rfl | rfl
      · cases hnode
        rcases List.mem_pair.1 hmem with rfl | rfl <;> simp
      · cases hnode
        have hmem : _ ∈ [Value.ref 1, .bool true, .ref 1] := hmem
        simp only [List.mem_cons, List.not_mem_nil, or_false] at hmem
        rcases hmem with rfl | rfl | rfl <;> simp

/-- Two nodes hold each other, and one of them holds itself. Seen from the list, the
object is written out twice, and each time both of its references are marked. -/
theorem unfolds_toJson_iff_ring :
    ring.WellFormed ∧ Value.Inside ring.nodes.size (.ref 2) ∧
    (let inner := Json.object [("me", .string "[Circular]"), ("next", .string "[Circular]")];
      ring.Unfolds [] (.ref 2) (.array [inner, .bool true, inner])) ∧
    (ring.toJson (.ref 2)).Fits 3 ∧
    ∀ node, ({ ring with nodes := ring.nodes.set! 0 node }).toJson (.ref 2) =
      ring.toJson (.ref 2) := by
  have hring : ring.WellFormed := ⟨by decide, by decide⟩
  have hin : Value.Inside ring.nodes.size (.ref 2) := by decide
  rcases unfolds_toJson_iff hring hin with ⟨hunfolds, -, -, hfits, hsame⟩
  refine ⟨hring, hin, (hunfolds _).2 (by rfl), hfits, fun node => (hsame _ fun id hid => ?_).1⟩
  have hne : 0 ≠ id := by
    rcases ring_below hid id rfl with rfl | rfl <;> decide
  simp [hne]

end Graph

end ActionChain
