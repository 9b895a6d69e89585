import ActionChain.Json.Decode

/-!
# Chains

A chain is a named list of actions. An action may name the mod that runs it;
all its other members are parameters, kept as they were written for whichever
handler ends up with them. The name of the mod is spelled by the member
`type`, so no parameter can have that name and no handler sees it.

An action and a command share their object with members of an open set, so
they are objects only, and every member is read. A chain on its own is an
ordinary record.

## Main definitions

* `Action`: the name of a mod, if any, and parameters.
* `Chain`: a name and actions.
* `Command`: a chain with the roles allowed to run it.
* `Action.read?`, `Action.written` and their like: to and from JSON.
-/

namespace ActionChain

/-- One configured step of a chain. -/
structure Action where
  /-- The name of the mod that runs it. -/
  kind : Option String
  /-- The parameters in ascending order of their names. -/
  params : List (String × Json)

/-- A list of actions under a name. -/
structure Chain where
  name : String
  actions : List Action

/-- A chain that a message invokes, with the roles allowed to do so; without
any, everyone is. -/
structure Command where
  chain : Chain
  perms : List String

namespace Source

/-- The members under a key and the others, both in the order of the text. -/
def splitMembers (key : String) (members : List (String × Source)) :
    List (String × Source) × List (String × Source) :=
  members.partition fun m => m.1 == key

/-- What stands under a key that may occur once: the inner option is empty
when it does not occur. -/
def single? (key : String) (members : List (String × Source)) : Option (Option Source) :=
  match (splitMembers key members).1 with
  | [] => some none
  | [(_, source)] => some (some source)
  | _ => none

/-- The members with their values, all of which must be readable. -/
def memberJsons? (members : List (String × Source)) : Option (List (String × Json)) :=
  members.mapM fun (key, source) => source.value?.map (key, ·)

end Source

namespace Action

/-- An action read from an object. -/
def read? : Source → Option Action
  | .object members => do
    let members ← Source.readableKeys? members
    let kind ← Source.single? "type" members
    let kind ← Source.withDefault none (Source.nullable? Source.text?) kind
    let params ← Source.memberJsons? (Source.splitMembers "type" members).2
    pure ⟨kind, Entries.ofList params⟩
  | _ => none

/-- An action as it is written: its parameters, and its mod's name if it has
one. -/
def written (a : Action) : Json :=
  match a.kind with
  | some kind => .object (Entries.insert "type" (.string kind) a.params)
  | none => .object a.params

/-- The parameters as a source, for a handler to read. -/
def paramSource (a : Action) : Source := Source.ofJson (.object a.params)

end Action

namespace Chain

/-- A chain read from a record. -/
def read? (source : Source) : Option Chain := do
  let field ← source.record? ["name", "actions"]
  let name ← Source.required Source.text? (field "name")
  let actions ← Source.withDefault [] (Source.list? Action.read?) (field "actions")
  pure ⟨name, actions⟩

/-- A chain as it is written. -/
def written (c : Chain) : Json :=
  .object [("name", .string c.name), ("actions", .array (c.actions.map Action.written))]

end Chain

namespace Command

/-- A command read from an object. -/
def read? : Source → Option Command
  | .object members => do
    let members ← Source.readableKeys? members
    let name ← Source.single? "name" members
    let name ← Source.required Source.text? name
    let actions ← Source.single? "actions" members
    let actions ← Source.withDefault [] (Source.list? Action.read?) actions
    let perms ← Source.single? "perms" members
    let perms ← Source.withDefault none (Source.nullable? (Source.list? Source.text?)) perms
    let _ ← Source.memberJsons? members
    pure ⟨⟨name, actions⟩, perms.getD []⟩
  | _ => none

end Command

namespace Chain

/-- The list of commands in a command file. -/
def readCommands? (source : Source) : Option (List Command) := do
  let field ← source.record? ["command"]
  Source.withDefault [] (Source.list? Command.read?) (field "command")

/-- The list of events in an event file. -/
def readEvents? (source : Source) : Option (List Chain) := do
  let field ← source.record? ["event"]
  Source.withDefault [] (Source.list? Chain.read?) (field "event")

end Chain

end ActionChain
