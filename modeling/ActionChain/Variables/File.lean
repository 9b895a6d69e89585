import ActionChain.Json.Decode
import ActionChain.Json.Printer
import ActionChain.Variables.Numbering
import ActionChain.Variables.Tree

/-!
# Variable Files

The file of a scope is a record of the roots and the nodes. A value is a
choice between names: `null` stands alone, and the others carry their
content. A number that is not finite is written as null content, which no
reader takes for a number again.

## Main definitions

* `Value.written`, `Node.written`, `Persisted.written`: the written form.
* `Value.read?`, `Node.read?`, `Persisted.read?`: reading it.
-/

namespace ActionChain

namespace Value

/-- A value as it is written. -/
def written : Value → Json
  | .null => .string "null"
  | .bool b => .object [("bool", .bool b)]
  | .number x => .object [("number", numberJson x)]
  | .text s => .object [("text", .string s)]
  | .ref id =>
    .object [("ref", if h : Number.InRange id then .number (.int id h) else .null)]

/-- A value read from its written form. -/
def read? (source : Source) : Option Value :=
  match source.choice? with
  | some ("null", none) => some .null
  | some ("null", some .null) => some .null
  | some ("bool", some payload) => payload.bool?.map .bool
  | some ("number", some payload) => payload.float?.map .number
  | some ("text", some payload) => payload.text?.map .text
  | some ("ref", some payload) => (payload.natural? UInt64.size).map .ref
  | _ => none

end Value

namespace Node

/-- A node as it is written. -/
def written : Node → Json
  | .object fields =>
    .object [("object", .object (fields.entries.map fun e => (e.1, e.2.written)))]
  | .list items => .object [("list", .array (items.map Value.written))]

/-- A node read from its written form. -/
def read? (source : Source) : Option Node :=
  match source.choice? with
  | some ("object", some payload) => (payload.table? Value.read?).map .object
  | some ("list", some payload) => (payload.list? Value.read?).map .list
  | _ => none

end Node

namespace Persisted

/-- A persisted graph as it is written. -/
def written (p : Persisted) : Json :=
  .object [("roots", .object (p.roots.entries.map fun e => (e.1, e.2.written))),
    ("nodes", .array (p.nodes.map Node.written))]

/-- A persisted graph read from its written form. Without a list of nodes
there are none. -/
def read? (source : Source) : Option Persisted := do
  let field ← source.record? ["roots", "nodes"]
  let roots ← Source.required (Source.table? Value.read?) (field "roots")
  let nodes ← Source.withDefault [] (Source.list? Node.read?) (field "nodes")
  pure ⟨roots, nodes⟩

end Persisted

namespace Graph

/-- The compact text of a graph's written form. -/
def encodedText (g : Graph) : String := g.encode.written.toText

/-- The content of a graph's file. -/
def fileText (g : Graph) : String := g.encode.written.toPrettyText

end Graph

end ActionChain
