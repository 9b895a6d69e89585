import ActionChain.Dict
import ActionChain.Numeric.Decimal
import ActionChain.Text.Inspect

/-!
# Variable Graphs

One scope of variables: named roots over a shared arena of nodes. A value
with structure lives in the arena and is referred to by its position, so one
node can hang under several keys, and a node can be reached from itself.

Nodes are only ever added at the end, and a reference is checked against the
size of the arena before it is stored anywhere. Together these keep every
stored reference inside the arena without a search, which is the
`WellFormed` of this module and the reason why numbering the reachable nodes
later needs no guard. An operation that fails returns an error and no graph,
so whoever called it still has the graph from before.

## Main definitions

* `Value`: a variable's value; structure is always behind a reference.
* `Node`: an object or a list of values.
* `Graph`: roots over an arena.
* `Graph.WellFormed`: every reference, reachable or not, lies inside the arena.
* `Graph.set`, `Graph.alloc`, `Graph.setField`, `Graph.pushItem`: the checked
  ways to write.

## Theorems

* `Graph.wellFormed_empty`, `Graph.wellFormed_set`, `Graph.wellFormed_remove`,
  `Graph.wellFormed_alloc`: writing keeps references inside the arena.
-/

namespace ActionChain

/-- A variable's value. Structured values are behind a reference to a node. -/
inductive Value where
  | null
  | bool (b : Bool)
  | number (x : Binary64)
  | text (s : String)
  | ref (id : Nat)
  deriving DecidableEq

/-- A structured value in the arena. -/
inductive Node where
  | object (fields : Dict String Value)
  | list (items : List Value)
  deriving DecidableEq

/-- Why a write was refused. -/
inductive GraphError where
  | danglingRef (id : Nat)
  | notAnObject (id : Nat)
  | notAList (id : Nat)
  deriving DecidableEq

namespace GraphError

/-- The wording of an error. -/
def message : GraphError → String
  | .danglingRef id => "Reference to node " ++ toString id ++ " points outside the graph"
  | .notAnObject id => "Node " ++ toString id ++ " is not an object"
  | .notAList id => "Node " ++ toString id ++ " is not a list"

end GraphError

namespace Value

/-- A value that refers to nothing outside an arena of a size. -/
def Inside (size : Nat) : Value → Prop
  | .ref id => id < size
  | _ => True

instance (size : Nat) : DecidablePred (Inside size) := fun v => by
  cases v <;> unfold Inside <;> infer_instance

theorem Inside.mono {m n : Nat} (hmn : m ≤ n) {v : Value} (h : v.Inside m) : v.Inside n := by
  cases v with
  | ref id => exact Nat.lt_of_lt_of_le h hmn
  | _ => trivial

/-- A value with its kind, as an error shows it. -/
def describe : Value → String
  | .null => "Null"
  | .bool b => if b then "Bool(true)" else "Bool(false)"
  | .number x => "Number(" ++ x.message ++ ")"
  | .text s => "Text(" ++ Text.inspect s ++ ")"
  | .ref id => "Ref(" ++ toString id ++ ")"

end Value

namespace Node

/-- The values a node holds, an object's in the order of their keys. -/
def children : Node → List Value
  | .object fields => fields.values
  | .list items => items

/-- The node with every value it holds replaced by its image. -/
def map (f : Value → Value) : Node → Node
  | .object fields => .object (fields.map f)
  | .list items => .list (items.map f)

@[simp] theorem children_map (f : Value → Value) (n : Node) :
    (n.map f).children = n.children.map f := by
  cases n <;> simp [map, children]

end Node

/-- Named roots over an arena of nodes. -/
structure Graph where
  nodes : Array Node
  roots : Dict String Value
  deriving DecidableEq

namespace Graph

/-- The graph without variables. -/
def empty : Graph := ⟨#[], Dict.empty⟩

instance : Inhabited Graph := ⟨empty⟩

/-- Every reference held by a root or by any node, reachable or not, lies
inside the arena. -/
structure WellFormed (g : Graph) : Prop where
  roots : ∀ v ∈ g.roots.values, v.Inside g.nodes.size
  nodes : ∀ n ∈ g.nodes, ∀ v ∈ n.children, v.Inside g.nodes.size

/-- The value under a key. -/
def get? (g : Graph) (key : String) : Option Value := g.roots.get? key

/-- The keys in ascending order. -/
def keys (g : Graph) : List String := g.roots.keys

/-- Whether there are no variables. Nodes that nothing refers to do not
count. -/
def isEmpty (g : Graph) : Bool := g.roots.isEmpty

/-- The node at a position of the arena. -/
def node? (g : Graph) (id : Nat) : Option Node := g.nodes[id]?

/-- The size of the arena, reachable or not. -/
def nodeCount (g : Graph) : Nat := g.nodes.size

/-- Refuses a reference that leads outside the arena. -/
def check (g : Graph) : Value → Except GraphError Unit
  | .ref id => if id < g.nodes.size then .ok () else .error (.danglingRef id)
  | _ => .ok ()

/-- Refuses the first of several values that leads outside the arena. -/
def checkAll (g : Graph) : List Value → Except GraphError Unit
  | [] => .ok ()
  | v :: rest =>
    match g.check v with
    | .ok () => g.checkAll rest
    | .error e => .error e

/-- Binds a key to a value. -/
def set (g : Graph) (key : String) (value : Value) : Except GraphError Graph :=
  match g.check value with
  | .ok () => .ok { g with roots := g.roots.insert key value }
  | .error e => .error e

/-- Removes a key. The nodes it led to stay in the arena. -/
def remove (g : Graph) (key : String) : Graph := { g with roots := g.roots.erase key }

/-- Adds a node and returns the reference to it. -/
def alloc (g : Graph) (node : Node) : Except GraphError (Graph × Value) :=
  match g.checkAll node.children with
  | .ok () => .ok ({ g with nodes := g.nodes.push node }, .ref g.nodes.size)
  | .error e => .error e

/-- Binds a field of an object. -/
def setField (g : Graph) (id : Nat) (key : String) (value : Value) : Except GraphError Graph :=
  match g.check value with
  | .error e => .error e
  | .ok () =>
    match g.nodes[id]? with
    | some (.object fields) =>
      .ok { g with nodes := g.nodes.setIfInBounds id (.object (fields.insert key value)) }
    | some (.list _) => .error (.notAnObject id)
    | none => .error (.danglingRef id)

/-- Adds an item at the end of a list. -/
def pushItem (g : Graph) (id : Nat) (value : Value) : Except GraphError Graph :=
  match g.check value with
  | .error e => .error e
  | .ok () =>
    match g.nodes[id]? with
    | some (.list items) =>
      .ok { g with nodes := g.nodes.setIfInBounds id (.list (items ++ [value])) }
    | some (.object _) => .error (.notAList id)
    | none => .error (.danglingRef id)

/-! ## References stay inside -/

theorem check_eq_ok_iff {g : Graph} {v : Value} : g.check v = .ok () ↔ v.Inside g.nodes.size := by
  cases v with
  | ref id => simp only [check, Value.Inside]; split <;> simp_all
  | _ => simp [check, Value.Inside]

theorem checkAll_eq_ok_iff {g : Graph} {vs : List Value} :
    g.checkAll vs = .ok () ↔ ∀ v ∈ vs, v.Inside g.nodes.size := by
  induction vs with
  | nil => simp [checkAll]
  | cons v rest ih =>
    rw [List.forall_mem_cons, ← ih, ← check_eq_ok_iff, checkAll]
    cases hv : g.check v <;> simp

theorem wellFormed_empty : empty.WellFormed := ⟨by simp [empty, Dict.empty, Dict.values],
  by simp [empty]⟩

theorem values_insert {d : Dict String Value} {key : String} {value v : Value}
    (h : v ∈ (d.insert key value).values) : v = value ∨ v ∈ d.values := by
  obtain ⟨e, he, rfl⟩ := List.mem_map.1 h
  rcases Entries.mem_insert he with rfl | he
  · exact .inl rfl
  · exact .inr (List.mem_map_of_mem he)

theorem values_erase {d : Dict String Value} {key : String} {v : Value}
    (h : v ∈ (d.erase key).values) : v ∈ d.values := by
  obtain ⟨e, he, rfl⟩ := List.mem_map.1 h
  exact List.mem_map_of_mem (Entries.mem_of_mem_erase he)

theorem wellFormed_set {g g' : Graph} {key : String} {value : Value} (hg : g.WellFormed)
    (h : g.set key value = .ok g') : g'.WellFormed := by
  unfold set at h
  split at h
  · rename_i hcheck
    cases h
    refine ⟨fun v hv => ?_, hg.nodes⟩
    rcases values_insert hv with rfl | hv
    · exact check_eq_ok_iff.1 hcheck
    · exact hg.roots v hv
  · cases h

theorem wellFormed_remove {g : Graph} (hg : g.WellFormed) (key : String) :
    (g.remove key).WellFormed :=
  ⟨fun v hv => hg.roots v (values_erase hv), hg.nodes⟩

theorem wellFormed_alloc {g g' : Graph} {node : Node} {v : Value} (hg : g.WellFormed)
    (h : g.alloc node = .ok (g', v)) : g'.WellFormed ∧ v = .ref g.nodes.size := by
  unfold alloc at h
  split at h
  · rename_i hcheck
    cases h
    refine ⟨⟨fun v hv => ?_, fun n hn v hv => ?_⟩, rfl⟩
    · exact (hg.roots v hv).mono (by simp)
    · simp only [Array.size_push]
      rcases Array.mem_push.1 hn with hn | rfl
      · exact (hg.nodes n hn v hv).mono (Nat.le_succ _)
      · exact (checkAll_eq_ok_iff.1 hcheck v hv).mono (Nat.le_succ _)
  · cases h

end Graph

end ActionChain
