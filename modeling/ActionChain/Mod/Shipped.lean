import ActionChain.Mod.Conduct

/-!
# Shipped Mods

The mods every bot is offered. Four handle actions: comparing a variable,
adding to one, waiting, and storing one of several texts. One listens to
joins, for the log alone.

Comparing goes by trees: the variable's tree against the tree of the expected
value, whose integers become floating-point numbers on the way in, as a
stored value's do. Adding treats a missing variable like null, and null like
zero.

## Main definitions

* `Shipped`: the behaviours.
* `Shipped.handle`, `Shipped.onEvent`: what they do, on any bot.
* `Shipped.manifest`: the mods in the order they are registered.
-/

namespace ActionChain

variable {β : Type}

/-- The behaviours of the shipped mods. -/
inductive Shipped where
  | ifVar
  | incrementVar
  | wait
  | randomPick
  | joinLogger
  deriving DecidableEq

namespace Shipped

/-- The name of a shipped mod. -/
def name : Shipped → String
  | .ifVar => "if-var"
  | .incrementVar => "increment-var"
  | .wait => "wait"
  | .randomPick => "random-pick"
  | .joinLogger => "guildMemberAdd"

/-- Whether a shipped mod handles actions; the other listens. -/
def handlesActions : Shipped → Bool
  | .joinLogger => false
  | _ => true

/-! ## Parameters -/

/-- The parameters of a comparison. -/
structure Comparison where
  scope : Scope
  key : String
  equals : Json
  /-- Where the chain goes on when the comparison fails; without it the chain
  stops. -/
  otherwise : Option Nat

/-- The parameters of an addition. -/
structure Increment where
  scope : Scope
  key : String
  amount : Binary64

/-- The parameters of a choice. -/
structure Choice where
  choices : List String
  scope : Scope
  key : String

/-- A comparison read from a record. -/
def Comparison.read? (source : Source) : Option Comparison := do
  let field ← source.record? ["scope", "key", "equals", "else"]
  let scope ← Source.required Scope.read? (field "scope")
  let key ← Source.required Source.text? (field "key")
  let equals ← Source.required Source.value? (field "equals")
  let otherwise ←
    Source.withDefault none (Source.nullable? (Source.natural? UInt64.size)) (field "else")
  pure ⟨scope, key, equals, otherwise⟩

/-- An addition read from a record; the amount is one unless it says
otherwise. -/
def Increment.read? (source : Source) : Option Increment := do
  let field ← source.record? ["scope", "key", "by"]
  let scope ← Source.required Scope.read? (field "scope")
  let key ← Source.required Source.text? (field "key")
  let amount ← Source.withDefault .one Source.float? (field "by")
  pure ⟨scope, key, amount⟩

/-- The milliseconds of a pause, read from a record. -/
def readPause? (source : Source) : Option Nat := do
  let field ← source.record? ["ms"]
  Source.required (Source.natural? UInt64.size) (field "ms")

/-- A choice read from a record. -/
def Choice.read? (source : Source) : Option Choice := do
  let field ← source.record? ["choices", "scope", "key"]
  let choices ← Source.required (Source.list? Source.text?) (field "choices")
  let scope ← Source.required Scope.read? (field "scope")
  let key ← Source.required Source.text? (field "key")
  pure ⟨choices, scope, key⟩

/-! ## Actions -/

/-- Whether a variable's tree is the expected one. A missing variable counts as
null. -/
def Comparison.holds (p : Comparison) (vars : Variables) : Bool :=
  let graph := vars.scope p.scope
  let (scratch, expected) := Graph.empty.importJson p.equals
  let actual := (graph.get? p.key).getD .null
  (graph.toJson actual).agrees (scratch.toJson expected)

/-- Where the chain goes on after a comparison. -/
def Comparison.continuation (p : Comparison) (holds : Bool) : Continuation :=
  if holds then .next
  else
    match p.otherwise with
    | some target => .goto target
    | none => .stop

/-- The failure of a shipped mod. -/
def fail (s : Shipped) (reason : String) : ChainError := .mod s.name reason

/-- The number a variable stands for in an addition. -/
def numberOf (key : String) : Option Value → Except ChainError Binary64
  | none => .ok .zero
  | some .null => .ok .zero
  | some (.number x) => .ok x
  | some other =>
    .error (fail .incrementVar ("'" ++ key ++ "' is not a number: " ++ other.describe))

/-- Adds to a variable. -/
def Increment.apply (p : Increment) (bot : Bot β) : Bot β × Except ChainError Unit :=
  match numberOf p.key (bot.lookUp p.scope p.key) with
  | .error e => (bot, .error e)
  | .ok current => bot.storeValue p.scope p.key (.number (current + p.amount))

/-- Stores one of the choices, as chance has it. -/
def Choice.apply (p : Choice) (bot : Bot β) : Bot β × Except ChainError Unit :=
  if p.choices.isEmpty then (bot, .error (fail .randomPick "no choices given"))
  else
    let (bot, number) := bot.draw
    bot.storeValue p.scope p.key (.text ((p.choices[number % p.choices.length]?).getD ""))

/-- Goes on to the next action unless something failed. -/
def andNext (step : Step) (result : Except ChainError Unit) : Reply :=
  step.reply (result.map fun _ => .next)

/-- What a shipped mod does about an action. -/
def handle (s : Shipped) (step : Step) : Routine (Bot β) Reply :=
  match s with
  | .ifVar =>
    match step.params Comparison.read? with
    | .error e => pure (step.reply (.error e))
    | .ok p => do
      let holds ← Routine.read fun bot => p.holds bot.vars
      pure (step.reply (.ok (p.continuation holds)))
  | .incrementVar =>
    match step.params Increment.read? with
    | .error e => pure (step.reply (.error e))
    | .ok p => return andNext step (← Routine.atomic p.apply)
  | .wait =>
    match step.params readPause? with
    | .error e => pure (step.reply (.error e))
    | .ok ms => do
      Routine.pause ms
      pure (andNext step (.ok ()))
  | .randomPick =>
    match step.params Choice.read? with
    | .error e => pure (step.reply (.error e))
    | .ok p => return andNext step (← Routine.atomic p.apply)
  | .joinLogger => pure (andNext step (.ok ()))

/-- What a shipped mod does about an event: the log is not part of the bot's
state. -/
def onEvent (_ : Shipped) (_ : PlatformEvent) : Routine (Bot β) (Except String Unit) :=
  pure (.ok ())

instance : Conduct Shipped := ⟨onEvent, handle⟩

/-- A shipped mod, its behaviour seen as one of a larger type. -/
def toMod (embed : Shipped → β) (s : Shipped) : BotMod β where
  name := s.name
  label := none
  companions := []
  failure := none
  listener := if s.handlesActions then none else some (embed s)
  action := if s.handlesActions then some (embed s) else none

/-- The shipped mods in the order they are registered. -/
def all : List Shipped := [.ifVar, .incrementVar, .wait, .randomPick, .joinLogger]

/-- The mods a bot is offered. -/
def manifest (embed : Shipped → β) : List (BotMod β) := all.map (toMod embed)

end Shipped

end ActionChain
