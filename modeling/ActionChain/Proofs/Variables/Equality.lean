import ActionChain.Proofs.Numeric.Exact
import ActionChain.Proofs.Variables.Growing
import Mathlib.Logic.Relation

/-!
# Equality and What Is Shown

When a value of a graph equals a JSON tree, and when it is only shown like one.

A value equals a tree if following its references gives the tree, with integers
as the nearest floating-point numbers (`Graph.Is`). A tree is finite and its
numbers are too, so a value that equals one leads into no circle and to no
infinite number. Such values are proper, and no other value equals anything
(`Graph.Is.proper`).

But every value is shown as some tree. Where there is nothing to show there is a
mark: a reference back into the path is the text `[Circular]`, and a number that is
not finite is null (`Graph.Shows`). Comparing what is shown therefore cannot tell a
mark from the text or the null that it looks like. On proper values there are no
marks, and comparing is equality (`Graph.Proper.shows_iff_is`); on others it always
goes wrong for some tree, namely the one that is shown (`Graph.shows_toJson`).

## Main definitions

* `Graph.Is`: a value equals a tree.
* `Graph.Shows`: a value is shown like a tree.
* `Graph.Child`, `Graph.Proper`: no circle and no infinite number below a value.
* `Arena.Lasts`: a walk that will not run out of fuel.

## Theorems

* `Graph.agrees_walk_iff`: comparing goes by what is shown.
* `Graph.ordered_walk`, `Graph.shows_toJson`: every value is shown like some tree.
* `Graph.Is.proper`: only proper values equal a tree.
* `Graph.Proper.shows_iff_is`: on proper values, what is shown is what is.
-/

namespace ActionChain

open Relation (ReflTransGen TransGen)

theorem Number.exists_finite (n : Number) : ∃ x, n.toBinary64 = .finite x := by
  cases n with
  | int i h => exact Binary64.exists_finite_ofInt (by unfold Number.InRange at h; omega)
  | float x => exact ⟨x, rfl⟩

/-- A floating-point number has the value of a number of a tree, which is read as
the nearest one if it is an integer. The sign of zero is no part of the value. -/
def Binary64.Is (x : Binary64) (n : Number) : Prop :=
  ∃ f f', x = .finite f ∧ n.toBinary64 = .finite f' ∧ f.scaled = f'.scaled

namespace Graph

/-! ## Equality -/

section

variable (g : Graph)

mutual

/-- A value, followed through its references, is a tree. -/
def Is : Json → Value → Prop
  | .null, .null => True
  | .bool a, .bool b => b = a
  | .number n, .number x => x.Is n
  | .string s, .text t => t = s
  | .array items, .ref id => ∃ vs, g.nodes[id]? = some (.list vs) ∧ IsItems items vs
  | .object members, .ref id =>
    ∃ fields : Dict String Value,
      g.nodes[id]? = some (.object fields) ∧ IsMembers members fields.entries
  | _, _ => False

/-- Values are the items of a list. -/
def IsItems : List Json → List Value → Prop
  | [], [] => True
  | w :: ws, v :: vs => Is w v ∧ IsItems ws vs
  | _, _ => False

/-- Fields are the members of an object. -/
def IsMembers : List (String × Json) → List (String × Value) → Prop
  | [], [] => True
  | (key, w) :: ws, (key', v) :: vs => key' = key ∧ Is w v ∧ IsMembers ws vs
  | _, _ => False

end

mutual

/-- Below the nodes of a path, a value is shown like a tree. It is the tree, or has
marks in places of it. -/
def Shows : Json → (path : List Nat) → Value → Prop
  | .null, _, .null => True
  -- A number that is not finite has no form of its own.
  | .null, _, .number x => ∀ f, x ≠ .finite f
  | .bool a, _, .bool b => b = a
  | .number n, _, .number x => x.Is n
  | .string s, _, .text t => t = s
  -- A reference back into the path closes a circle.
  | .string s, path, .ref id => id ∈ path ∧ "[Circular]" = s
  | .array items, path, .ref id => id ∉ path ∧
      ∃ vs, g.nodes[id]? = some (.list vs) ∧ ShowsItems items (id :: path) vs
  | .object members, path, .ref id => id ∉ path ∧
      ∃ fields : Dict String Value,
        g.nodes[id]? = some (.object fields) ∧ ShowsMembers members (id :: path) fields.entries
  | _, _, _ => False

/-- Values are shown like the items of a list. -/
def ShowsItems : List Json → (path : List Nat) → List Value → Prop
  | [], _, [] => True
  | w :: ws, path, v :: vs => Shows w path v ∧ ShowsItems ws path vs
  | _, _, _ => False

/-- Fields are shown like the members of an object. -/
def ShowsMembers : List (String × Json) → (path : List Nat) → List (String × Value) → Prop
  | [], _, [] => True
  | (key, w) :: ws, path, (key', v) :: vs =>
    key' = key ∧ Shows w path v ∧ ShowsMembers ws path vs
  | _, _, _ => False

end

/-- A value stands directly below another. -/
def Child (u v : Value) : Prop :=
  ∃ id node, v = .ref id ∧ g.nodes[id]? = some node ∧ u ∈ node.children

/-- A value leads into no circle and to no number that is not finite. -/
structure Proper (v : Value) : Prop where
  acyclic : ∀ u, ReflTransGen g.Child u v → ¬ TransGen g.Child u u
  finite : ∀ x, ReflTransGen g.Child (.number x) v → ∃ f, x = .finite f

end

end Graph

/-! ## Comparing -/

namespace Arena

variable {fuel : Nat} {path : List Nat}

/-- A path of distinct nodes, and enough fuel to visit all the others. -/
structure Lasts (size fuel : Nat) (path : List Nat) : Prop where
  nodup : path.Nodup
  lt : ∀ id ∈ path, id < size
  enough : size < fuel + path.length

namespace Lasts

variable {size : Nat}

theorem start (size : Nat) : Lasts size (size + 1) [] :=
  ⟨List.nodup_nil, nofun, by simp⟩

theorem exists_fuel (h : Lasts size fuel path) : ∃ k, fuel = k + 1 := by
  have hlen := length_le_of_nodup_of_lt h.nodup h.lt
  have henough := h.enough
  exact ⟨fuel - 1, by omega⟩

/-- Entering a node takes one unit of fuel. -/
theorem enter (h : Lasts size (fuel + 1) path) {id : Nat} (hid : id < size)
    (hfresh : id ∉ path) : Lasts size fuel (id :: path) := by
  refine ⟨List.nodup_cons.2 ⟨hfresh, h.nodup⟩, ?_, ?_⟩
  · intro k hk
    rcases List.mem_cons.1 hk with rfl | hk
    · exact hid
    · exact h.lt k hk
  · have henough := h.enough
    rw [List.length_cons]
    omega

end Lasts

end Arena

namespace Json

@[simp] theorem stored_null : null.stored = null := by simp [stored, mapNumbers]

@[simp] theorem stored_bool (b : Bool) : (bool b).stored = bool b := by simp [stored, mapNumbers]

@[simp] theorem stored_string (s : String) : (string s).stored = string s := by
  simp [stored, mapNumbers]

@[simp] theorem stored_array (items : List Json) :
    (array items).stored = array (mapItems (fun n => Value.numberJson n.toBinary64) items) := by
  simp [stored, mapNumbers]

@[simp] theorem stored_object (members : List (String × Json)) :
    (object members).stored =
      object (mapMembers (fun n => Value.numberJson n.toBinary64) members) := by
  simp [stored, mapNumbers]

/-- What is kept of a number is finite. -/
theorem stored_number (n : Number) :
    ∃ x, n.toBinary64 = .finite x ∧ (number n).stored = number (.float x) := by
  rcases n.exists_finite with ⟨x, hx⟩
  refine ⟨x, hx, ?_⟩
  simp only [stored, mapNumbers, hx, Value.numberJson]

/-- Only a number agrees with what is kept of a number. -/
theorem agrees_stored_number {w : Json} (hw : ∀ m, w ≠ .number m) (n : Number) :
    w.agrees (number n).stored = false := by
  rcases stored_number n with ⟨x, -, hx⟩
  rw [hx]
  cases w with
  | number m => exact absurd rfl (hw m)
  | _ => simp [agrees]

theorem orderedItems_map {f : Value → Json} : ∀ vs : List Value,
    (∀ v ∈ vs, (f v).Ordered) → OrderedItems (vs.map f)
  | [], _ => trivial
  | _ :: vs, h =>
      ⟨h _ List.mem_cons_self, orderedItems_map vs fun u hu => h u (List.mem_cons_of_mem _ hu)⟩

theorem agrees_string_iff (s : String) (w : Json) :
    (string s).agrees w.stored = true ↔ w = .string s := by
  cases w with
  | number n => simp [agrees_stored_number]
  | string t =>
      simp only [stored_string, agrees, beq_iff_eq, string.injEq]
      exact eq_comm
  | _ => simp [agrees]

theorem agrees_array_iff (items : List Json) (w : Json) :
    (array items).agrees w.stored = true ↔ ∃ items', w = .array items' ∧
      agreesItems items (mapItems (fun n => Value.numberJson n.toBinary64) items') = true := by
  cases w with
  | number n => simp [agrees_stored_number]
  | _ => simp [agrees]

theorem agrees_object_iff (members : List (String × Json)) (w : Json) :
    (object members).agrees w.stored = true ↔ ∃ members', w = .object members' ∧
      agreesMembers members (mapMembers (fun n => Value.numberJson n.toBinary64) members') =
        true := by
  cases w with
  | number n => simp [agrees_stored_number]
  | _ => simp [agrees]

end Json

namespace Graph

section

variable {g : Graph} {path : List Nat} {id : Nat}

theorem shows_circle_iff (hin : id ∈ path) (w : Json) :
    g.Shows w path (.ref id) ↔ w = .string "[Circular]" := by
  cases w <;> simp [Shows, hin, eq_comm]

theorem shows_list_iff (hfresh : id ∉ path) {vs : List Value}
    (hnode : g.nodes[id]? = some (.list vs)) (w : Json) :
    g.Shows w path (.ref id) ↔ ∃ items, w = .array items ∧ g.ShowsItems items (id :: path) vs := by
  cases w <;> simp [Shows, hfresh, hnode]

theorem shows_object_iff (hfresh : id ∉ path) {fields : Dict String Value}
    (hnode : g.nodes[id]? = some (.object fields)) (w : Json) :
    g.Shows w path (.ref id) ↔
      ∃ members, w = .object members ∧ g.ShowsMembers members (id :: path) fields.entries := by
  cases w <;> simp [Shows, hfresh, hnode]

/-- The trees of several values agree with items if each agrees with its own. -/
theorem agreesItems_map_iff {f : Value → Json} : ∀ (items : List Json) (vs : List Value),
    (∀ v ∈ vs, ∀ w, (f v).agrees w.stored = true ↔ g.Shows w path v) →
    (Json.agreesItems (vs.map f)
        (Json.mapItems (fun n => Value.numberJson n.toBinary64) items) = true ↔
      g.ShowsItems items path vs)
  | [], [], _ => by simp [Json.agreesItems, Json.mapItems, ShowsItems]
  | [], _ :: _, _ => by simp [Json.agreesItems, Json.mapItems, ShowsItems]
  | _ :: _, [], _ => by simp [Json.agreesItems, Json.mapItems, ShowsItems]
  | w :: rest, v :: vs, h => by
      have hhead := h v List.mem_cons_self w
      have hrest := agreesItems_map_iff rest vs fun u hu => h u (List.mem_cons_of_mem _ hu)
      unfold Json.stored at hhead
      simp only [List.map_cons, Json.mapItems, Json.agreesItems, ShowsItems, Bool.and_eq_true]
      rw [hhead, hrest]

theorem agreesMembers_map_iff {f : Value → Json} :
    ∀ (members : List (String × Json)) (fields : List (String × Value)),
    (∀ e ∈ fields, ∀ w, (f e.2).agrees w.stored = true ↔ g.Shows w path e.2) →
    (Json.agreesMembers (fields.map fun e => (e.1, f e.2))
        (Json.mapMembers (fun n => Value.numberJson n.toBinary64) members) = true ↔
      g.ShowsMembers members path fields)
  | [], [], _ => by simp [Json.agreesMembers, Json.mapMembers, ShowsMembers]
  | [], _ :: _, _ => by simp [Json.agreesMembers, Json.mapMembers, ShowsMembers]
  | _ :: _, [], _ => by simp [Json.agreesMembers, Json.mapMembers, ShowsMembers]
  | (key, w) :: rest, (key', v) :: fields, h => by
      have hhead := h (key', v) List.mem_cons_self w
      have hrest := agreesMembers_map_iff rest fields fun e he => h e (List.mem_cons_of_mem _ he)
      unfold Json.stored at hhead
      simp only [List.map_cons, Json.mapMembers, Json.agreesMembers, ShowsMembers,
        Bool.and_eq_true, beq_iff_eq, and_assoc]
      rw [hhead, hrest]

/-- Where nothing is followed, agreeing is being shown alike. -/
theorem agrees_scalar_iff {v : Value} (hv : ∀ id, v ≠ .ref id) (nodes : Array Node) (fuel : Nat)
    (w : Json) : (Arena.walk nodes fuel path v).agrees w.stored = true ↔ g.Shows w path v := by
  cases v with
  | number x =>
      cases x with
      | finite f =>
          cases w with
          | number n =>
              rcases Json.stored_number n with ⟨y, hn, hy⟩
              simp [Arena.walk, Value.numberJson, Json.agrees, Shows, Number.sameValue,
                Binary64.Is, hn, hy, Binary64.Finite.sameValue_iff]
          | _ => simp [Arena.walk, Value.numberJson, Json.agrees, Shows]
      | _ =>
          cases w <;> simp [Arena.walk, Value.numberJson, Json.agrees, Json.agrees_stored_number,
            Shows, Binary64.Is]
  | ref id => exact absurd rfl (hv id)
  | _ => cases w <;> simp [Arena.walk, Json.agrees, Json.agrees_stored_number, Shows]

/-- A reference agrees with a mark, or with a tree of the kind of its node, item by
item. -/
theorem agrees_ref_iff {fuel : Nat} (hid : id < g.nodes.size)
    (h : id ∉ path → ∀ node, g.nodes[id]? = some node → ∀ v ∈ node.children, ∀ w,
      (Arena.walk g.nodes fuel (id :: path) v).agrees w.stored = true ↔
        g.Shows w (id :: path) v) (w : Json) :
    (Arena.walk g.nodes (fuel + 1) path (.ref id)).agrees w.stored = true ↔
      g.Shows w path (.ref id) := by
  simp only [Arena.walk]
  by_cases hin : id ∈ path
  · rw [if_pos hin, Json.agrees_string_iff, shows_circle_iff hin]
  · have hnode := Array.getElem?_eq_getElem hid
    have hbelow := h hin _ hnode
    rw [if_neg hin, hnode]
    cases hn : g.nodes[id] with
    | list vs =>
        rw [hn] at hnode hbelow
        rw [Json.agrees_array_iff, shows_list_iff hin hnode]
        exact exists_congr fun items => and_congr_right fun _ =>
          agreesItems_map_iff items vs hbelow
    | object fields =>
        rw [hn] at hnode hbelow
        rw [Json.agrees_object_iff, shows_object_iff hin hnode]
        exact exists_congr fun members => and_congr_right fun _ =>
          agreesMembers_map_iff members fields.entries fun e he =>
            hbelow e.2 (List.mem_map_of_mem he)

/-- The tree of a value agrees with what is kept of a tree exactly if the value is
shown like it. -/
theorem agrees_walk_iff (hclosed : Arena.Closed g.nodes) {fuel : Nat} {v : Value}
    (hv : v.Inside g.nodes.size) (hlasts : Arena.Lasts g.nodes.size fuel path) (w : Json) :
    (Arena.walk g.nodes fuel path v).agrees w.stored = true ↔ g.Shows w path v := by
  induction fuel generalizing path v w with
  | zero =>
      rcases hlasts.exists_fuel with ⟨k, hk⟩
      omega
  | succ fuel ih =>
      cases v with
      | ref id =>
          refine agrees_ref_iff hv (fun hfresh node hnode u hu => ?_) w
          exact ih (hclosed node (Array.mem_of_getElem? hnode) u hu) (hlasts.enter hv hfresh)
      | _ => exact agrees_scalar_iff (by simp) _ _ w

/-! ## Every value is shown as some tree -/

theorem showsItems_map {f : Value → Json} : ∀ vs : List Value,
    (∀ v ∈ vs, g.Shows (f v) path v) → g.ShowsItems (vs.map f) path vs
  | [], _ => trivial
  | _ :: vs, h =>
      ⟨h _ List.mem_cons_self, showsItems_map vs fun u hu => h u (List.mem_cons_of_mem _ hu)⟩

theorem showsMembers_map {f : Value → Json} : ∀ fields : List (String × Value),
    (∀ e ∈ fields, g.Shows (f e.2) path e.2) →
    g.ShowsMembers (fields.map fun e => (e.1, f e.2)) path fields
  | [], _ => trivial
  | _ :: fields, h => ⟨rfl, h _ List.mem_cons_self,
      showsMembers_map fields fun e he => h e (List.mem_cons_of_mem _ he)⟩

theorem shows_walk (hclosed : Arena.Closed g.nodes) {fuel : Nat} {v : Value}
    (hv : v.Inside g.nodes.size) (hlasts : Arena.Lasts g.nodes.size fuel path) :
    g.Shows (Arena.walk g.nodes fuel path v) path v := by
  induction fuel generalizing path v with
  | zero =>
      rcases hlasts.exists_fuel with ⟨k, hk⟩
      omega
  | succ fuel ih =>
      cases v with
      | null => trivial
      | bool b => rfl
      | text t => rfl
      | number x =>
          cases x with
          | finite f => exact ⟨f, f, rfl, rfl, rfl⟩
          | _ => exact nofun
      | ref id =>
          simp only [Arena.walk]
          by_cases hin : id ∈ path
          · rw [if_pos hin, shows_circle_iff hin]
          · have hnode := Array.getElem?_eq_getElem hv
            have hbelow : ∀ u ∈ g.nodes[id].children,
                g.Shows (Arena.walk g.nodes fuel (id :: path) u) (id :: path) u := fun u hu =>
              ih (hclosed _ (Array.getElem_mem hv) u hu) (hlasts.enter hv hin)
            rw [if_neg hin, hnode]
            cases hn : g.nodes[id] with
            | list vs =>
                rw [hn] at hnode hbelow
                rw [shows_list_iff hin hnode]
                exact ⟨_, rfl, showsItems_map vs hbelow⟩
            | object fields =>
                rw [hn] at hnode hbelow
                rw [shows_object_iff hin hnode]
                exact ⟨_, rfl, showsMembers_map _ fun e he =>
                  hbelow e.2 (List.mem_map_of_mem he)⟩

end

/-- The tree of a value has the order of its objects. -/
theorem ordered_walk (nodes : Array Node) (fuel : Nat) (path : List Nat) (v : Value) :
    (Arena.walk nodes fuel path v).Ordered := by
  have hnumber : ∀ x, (Value.numberJson x).Ordered := fun x => by cases x <;> trivial
  induction fuel generalizing path v with
  | zero => cases v <;> simp [Arena.walk, Json.Ordered, hnumber]
  | succ fuel ih =>
      cases v with
      | ref id =>
          simp only [Arena.walk]
          split
          · trivial
          · split
            · rename_i fields _
              refine ⟨(fields.map (Arena.walk nodes fuel (id :: path))).ascending, ?_⟩
              refine Json.orderedMembers_iff.2 fun e he => ?_
              rcases List.mem_map.1 he with ⟨e', -, rfl⟩
              exact ih _ e'.2
            · exact Json.orderedItems_map _ fun v _ => ih _ v
            · trivial
      | _ => simp [Arena.walk, Json.Ordered, hnumber]

/-- Every value is shown as a tree, its own. -/
theorem shows_toJson {g : Graph} (hg : g.WellFormed) {v : Value} (hv : v.Inside g.nodes.size) :
    g.Shows (g.toJson v) [] v :=
  shows_walk hg.nodes hv (.start _)

/-! ## Only proper values are trees -/

section

variable {g : Graph}

theorem Child.of_mem {u : Value} {id : Nat} {node : Node} (hnode : g.nodes[id]? = some node)
    (hu : u ∈ node.children) : g.Child u (.ref id) :=
  ⟨id, node, rfl, hnode, hu⟩

theorem Proper.child {u v : Value} (hv : g.Proper v) (huv : g.Child u v) : g.Proper u :=
  ⟨fun w hw => hv.acyclic w (hw.tail huv), fun x hx => hv.finite x (hx.tail huv)⟩

/-- A value is proper if all values below it are. -/
theorem Proper.of_children {v : Value} (hchildren : ∀ u, g.Child u v → g.Proper u)
    (hfinite : ∀ x, v = .number x → ∃ f, x = .finite f) : g.Proper v := by
  refine ⟨fun u hu hloop => ?_, fun x hx => ?_⟩
  · rcases hu.cases_tail with rfl | ⟨c, huc, hcv⟩
    -- A circle through the value itself passes through a child of it.
    · rcases TransGen.tail'_iff.1 hloop with ⟨c, hvc, hcv⟩
      exact (hchildren c hcv).acyclic c .refl (TransGen.head' hcv hvc)
    · exact (hchildren c hcv).acyclic u huc hloop
  · rcases hx.cases_tail with hx | ⟨c, hxc, hcv⟩
    · exact hfinite x hx
    · exact (hchildren c hcv).finite x hxc

/-- A value with nothing below it is proper unless it is a number that is not
finite. -/
theorem Proper.of_scalar {v : Value} (hv : ∀ id, v ≠ .ref id)
    (hfinite : ∀ x, v = .number x → ∃ f, x = .finite f) : g.Proper v := by
  refine .of_children ?_ hfinite
  rintro u ⟨id, node, rfl, -, -⟩
  exact absurd rfl (hv id)

mutual

/-- Only proper values equal a tree. -/
theorem Is.proper : ∀ {w : Json} {v : Value}, g.Is w v → g.Proper v
  | .null, .null, _ => .of_scalar (by simp) (by simp)
  | .bool _, .bool _, _ => .of_scalar (by simp) (by simp)
  | .string _, .text _, _ => .of_scalar (by simp) (by simp)
  | .number _, .number _, ⟨f, _, hx, _⟩ => .of_scalar (by simp) fun _ hv => by
      cases hv
      exact ⟨f, hx⟩
  | .array items, .ref id, ⟨vs, hnode, hitems⟩ => by
      refine .of_children ?_ (by simp)
      rintro u ⟨_, node, hid, hnode', hu⟩
      cases hid
      cases hnode.symm.trans hnode'
      exact IsItems.proper hitems u hu
  | .object members, .ref id, ⟨fields, hnode, hmembers⟩ => by
      refine .of_children ?_ (by simp)
      rintro u ⟨_, node, hid, hnode', hu⟩
      cases hid
      cases hnode.symm.trans hnode'
      rcases List.mem_map.1 hu with ⟨e, he, rfl⟩
      exact IsMembers.proper hmembers e he

theorem IsItems.proper : ∀ {items : List Json} {vs : List Value}, g.IsItems items vs →
    ∀ v ∈ vs, g.Proper v
  | [], [], _ => nofun
  | _ :: _, _ :: _, ⟨hhead, hrest⟩ =>
      List.forall_mem_cons.2 ⟨Is.proper hhead, IsItems.proper hrest⟩

theorem IsMembers.proper : ∀ {members : List (String × Json)} {fields : List (String × Value)},
    g.IsMembers members fields → ∀ e ∈ fields, g.Proper e.2
  | [], [], _ => nofun
  | (_, _) :: _, (_, _) :: _, ⟨_, hhead, hrest⟩ =>
      List.forall_mem_cons.2 ⟨Is.proper hhead, IsMembers.proper hrest⟩

end

/-- From a proper value no way leads back to it. -/
theorem Proper.not_mem {id : Nat} {path : List Nat} (hv : g.Proper (.ref id))
    (hpath : ∀ k ∈ path, TransGen g.Child (.ref id) (.ref k)) : id ∉ path :=
  fun hmem => hv.acyclic _ .refl (hpath id hmem)

/-- A way that leads from a node leads from its children through the node. -/
theorem Child.way {u : Value} {id : Nat} {path : List Nat} (hu : g.Child u (.ref id))
    (hpath : ∀ k ∈ path, TransGen g.Child (.ref id) (.ref k)) :
    ∀ k ∈ id :: path, TransGen g.Child u (.ref k) :=
  List.forall_mem_cons.2 ⟨.single hu, fun k hk => .head hu (hpath k hk)⟩

mutual

/-- Proper values are shown like the trees that they equal, and like no others. -/
theorem Proper.shows_iff_is : ∀ {w : Json} {path : List Nat} {v : Value}, g.Proper v →
    (∀ id ∈ path, TransGen g.Child v (.ref id)) → (g.Shows w path v ↔ g.Is w v)
  | w, path, .ref id, hv, hpath => by
      have hfresh := hv.not_mem hpath
      cases w with
      | array items =>
          simp only [Shows, Is, hfresh, not_false_eq_true, true_and]
          refine exists_congr fun vs => and_congr_right fun hnode => ?_
          exact Proper.showsItems_iff_isItems fun u hu =>
            have hchild : g.Child u (.ref id) := .of_mem hnode hu
            ⟨hv.child hchild, hchild.way hpath⟩
      | object members =>
          simp only [Shows, Is, hfresh, not_false_eq_true, true_and]
          refine exists_congr fun fields => and_congr_right fun hnode => ?_
          exact Proper.showsMembers_iff_isMembers fun e he =>
            have hchild : g.Child e.2 (.ref id) := .of_mem hnode (List.mem_map_of_mem he)
            ⟨hv.child hchild, hchild.way hpath⟩
      | _ => simp [Shows, Is, hfresh]
  | w, path, .number x, hv, _ => by
      rcases hv.finite x .refl with ⟨f, rfl⟩
      cases w <;> simp [Shows, Is]
  | w, _, .null, _, _ => by cases w <;> simp [Shows, Is]
  | w, _, .bool _, _, _ => by cases w <;> simp [Shows, Is]
  | w, _, .text _, _, _ => by cases w <;> simp [Shows, Is]

theorem Proper.showsItems_iff_isItems : ∀ {items : List Json} {path : List Nat} {vs : List Value},
    (∀ v ∈ vs, g.Proper v ∧ ∀ id ∈ path, TransGen g.Child v (.ref id)) →
    (g.ShowsItems items path vs ↔ g.IsItems items vs)
  | [], _, [], _ => by simp [ShowsItems, IsItems]
  | [], _, _ :: _, _ => by simp [ShowsItems, IsItems]
  | _ :: _, _, [], _ => by simp [ShowsItems, IsItems]
  | w :: items, path, v :: vs, h => by
      rcases List.forall_mem_cons.1 h with ⟨⟨hv, hpath⟩, hrest⟩
      simp only [ShowsItems, IsItems]
      rw [Proper.shows_iff_is hv hpath, Proper.showsItems_iff_isItems hrest]

theorem Proper.showsMembers_iff_isMembers : ∀ {members : List (String × Json)} {path : List Nat}
    {fields : List (String × Value)},
    (∀ e ∈ fields, g.Proper e.2 ∧ ∀ id ∈ path, TransGen g.Child e.2 (.ref id)) →
    (g.ShowsMembers members path fields ↔ g.IsMembers members fields)
  | [], _, [], _ => by simp [ShowsMembers, IsMembers]
  | [], _, _ :: _, _ => by simp [ShowsMembers, IsMembers]
  | _ :: _, _, [], _ => by simp [ShowsMembers, IsMembers]
  | (key, w) :: members, path, (key', v) :: fields, h => by
      rcases List.forall_mem_cons.1 h with ⟨⟨hv, hpath⟩, hrest⟩
      simp only [ShowsMembers, IsMembers]
      rw [Proper.shows_iff_is hv hpath, Proper.showsMembers_iff_isMembers hrest]

end

end

end Graph

end ActionChain
