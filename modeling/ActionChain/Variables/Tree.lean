import ActionChain.Json.Printer
import ActionChain.Variables.Graph

/-!
# Variables as Trees

A chain speaks JSON and the graph speaks nodes. Importing copies a JSON tree
into the arena, children before their parent, and returns the value that
stands for it; only nodes are added, so everything that was there keeps its
meaning. Following a value's references gives the tree back.

References can run in circles, and then there is no tree. The walk therefore
carries the nodes it is inside of, and a reference to one of them is written
as the text `[Circular]`. A node met again off the path is shared, not
circular, and is written out in full. A path that repeats no node is no
longer than the arena, which is what the fuel of the walk counts.

A number that is not finite has no JSON form and is written as null, and so
is a reference that leads nowhere.

## Main definitions

* `Graph.importJson`: a JSON tree copied into the arena.
* `Graph.toJson`: the tree a value stands for.
* `Graph.display`: the text of a value in a message.
-/

namespace ActionChain

namespace Value

/-- The value of a number of a JSON tree. -/
def ofNumber (n : Number) : Value := .number n.toBinary64

/-- The JSON form of a number, null unless it is finite. -/
def numberJson : Binary64 → Json
  | .finite x => .number (.float x)
  | _ => .null

end Value

namespace Arena

mutual

/-- An arena with a JSON tree added, and the value that stands for the tree. -/
def importJson (nodes : Array Node) : Json → Array Node × Value
  | .null => (nodes, .null)
  | .bool b => (nodes, .bool b)
  | .number n => (nodes, .ofNumber n)
  | .string s => (nodes, .text s)
  | .array items =>
    let (nodes, values) := importItems nodes items
    (nodes.push (.list values), .ref nodes.size)
  | .object members =>
    let (nodes, fields) := importMembers nodes members
    (nodes.push (.object (Dict.ofList fields)), .ref nodes.size)

/-- `importJson` item by item. -/
def importItems (nodes : Array Node) : List Json → Array Node × List Value
  | [] => (nodes, [])
  | item :: rest =>
    let (nodes, value) := importJson nodes item
    let (nodes, values) := importItems nodes rest
    (nodes, value :: values)

/-- `importJson` member by member. -/
def importMembers (nodes : Array Node) :
    List (String × Json) → Array Node × List (String × Value)
  | [] => (nodes, [])
  | (key, json) :: rest =>
    let (nodes, value) := importJson nodes json
    let (nodes, fields) := importMembers nodes rest
    (nodes, (key, value) :: fields)

end

/-- The tree of a value below the nodes of a path, as far as the fuel goes. -/
def walk (nodes : Array Node) : (fuel : Nat) → (path : List Nat) → Value → Json
  | _, _, .null => .null
  | _, _, .bool b => .bool b
  | _, _, .number x => Value.numberJson x
  | _, _, .text s => .string s
  | 0, _, .ref _ => .null
  | fuel + 1, path, .ref id =>
    if id ∈ path then .string "[Circular]"
    else
      match nodes[id]? with
      | some (.object fields) =>
        .object (fields.entries.map fun e => (e.1, walk nodes fuel (id :: path) e.2))
      | some (.list items) => .array (items.map (walk nodes fuel (id :: path)))
      | none => .null

end Arena

namespace Graph

/-- Copies a JSON tree into the arena and returns the value that stands for
it. -/
def importJson (g : Graph) (j : Json) : Graph × Value :=
  let (nodes, value) := Arena.importJson g.nodes j
  ({ g with nodes }, value)

/-- The tree a value stands for. One step of fuel per node and one for the
reference that closes a circle is enough. -/
def toJson (g : Graph) (v : Value) : Json := Arena.walk g.nodes (g.nodes.size + 1) [] v

/-- The text of a value in a message. -/
def display (g : Graph) : Value → String
  | .null => ""
  | .bool b => if b then "true" else "false"
  | .number x => x.message
  | .text s => s
  | .ref id => (g.toJson (.ref id)).toText

end Graph

end ActionChain
