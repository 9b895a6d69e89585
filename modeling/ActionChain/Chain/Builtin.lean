import ActionChain.Bot
import ActionChain.Chain.Template

/-!
# Steps and the Built-in Action

A step shows its handler the subject, the action and the arguments, which all
steps of a run share; the handler replies with what comes next and with the
arguments as it leaves them. A failing handler replies too, so what it did to
the arguments is not lost.

The built-in action serves every action that no mod handles. It can set a
variable, send a message and say where the chain goes on, in this order, and
ignores parameters it does not know: an action whose mod is missing still
does what its parameters describe in these terms. The value to be stored is a
template if it is a text, rendered before anything is written; the message is
rendered after. A message without a channel, neither its own nor the
subject's, is not sent, which is no failure.

## Main definitions

* `Step`, `Reply`: what a handler sees, and what it answers.
* `Builtin.Params`: the parameters of the built-in action.
* `Builtin.handle`: the built-in action.
-/

namespace ActionChain

variable {β : Type}

/-- What a handler sees of a step. -/
structure Step where
  subject : Subject
  action : Action
  args : List String
  chain : Chain
  index : Nat

/-- What a handler answers. -/
structure Reply where
  result : Except ChainError Continuation
  /-- The arguments for the steps to come. -/
  args : List String

namespace Step

/-- A reply that leaves the arguments alone. -/
def reply (step : Step) (result : Except ChainError Continuation) : Reply := ⟨result, step.args⟩

/-- The parameters as a decoder reads them, or the error that names this
step. -/
def params {α : Type} (step : Step) (read? : Source → Option α) : Except ChainError α :=
  match read? step.action.paramSource with
  | some p => .ok p
  | none => .error (.invalidParams step.index)

/-- A template rendered for this step. -/
def render (step : Step) (template : String) (vars : Variables) : String :=
  Template.render template step.subject step.args vars

end Step

namespace Bot

/-- Copies a JSON tree into a scope and binds a key to it. -/
def storeJson (bot : Bot β) (scope : Scope) (key : String) (j : Json) :
    Bot β × Except ChainError Unit :=
  -- The arena holds the tree by now, so the value refers into it.
  let (graph, value) := (bot.vars.scope scope).importJson j
  match graph.set key value with
  | .ok graph => ({ bot with vars := bot.vars.update scope graph }, .ok ())
  | .error e =>
    ({ bot with vars := bot.vars.update scope graph }, .error (.graph e))

/-- Binds a key of a scope to a value. -/
def storeValue (bot : Bot β) (scope : Scope) (key : String) (value : Value) :
    Bot β × Except ChainError Unit :=
  match (bot.vars.scope scope).set key value with
  | .ok graph => ({ bot with vars := bot.vars.update scope graph }, .ok ())
  | .error e => (bot, .error (.graph e))

/-- The value under a key of a scope. -/
def lookUp (bot : Bot β) (scope : Scope) (key : String) : Option Value :=
  (bot.vars.scope scope).get? key

end Bot

namespace Builtin

/-- A variable to set. -/
structure Assignment where
  scope : Scope
  key : String
  value : Json

namespace Assignment

/-- An assignment read from a record. -/
def read? (source : Source) : Option Assignment := do
  let field ← source.record? ["scope", "key", "value"]
  let scope ← Source.required Scope.read? (field "scope")
  let key ← Source.required Source.text? (field "key")
  let value ← Source.required Source.value? (field "value")
  pure ⟨scope, key, value⟩

end Assignment

/-- The parameters of the built-in action. -/
structure Params where
  set : Option Assignment
  message : Option String
  channel : Option UInt64
  stop : Bool
  goto : Option Nat

namespace Params

/-- Parameters read from a record. -/
def read? (source : Source) : Option Params := do
  let field ← source.record? ["set", "message", "channel", "stop", "goto"]
  let set ← Source.withDefault none (Source.nullable? Assignment.read?) (field "set")
  let message ← Source.withDefault none (Source.nullable? Source.text?) (field "message")
  let channel ← Source.withDefault none (Source.nullable? Source.word?) (field "channel")
  let stop ← Source.withDefault false Source.bool? (field "stop")
  let goto ← Source.withDefault none (Source.nullable? (Source.natural? UInt64.size)) (field "goto")
  pure ⟨set, message, channel, stop, goto⟩

/-- Where the chain goes on: stopping comes before jumping. -/
def continuation (p : Params) : Continuation :=
  if p.stop then .stop
  else
    match p.goto with
    | some target => .goto target
    | none => .next

end Params

/-- The value an assignment stores: a text is a template, everything else
stands for itself. -/
def assignedJson (step : Step) (value : Json) (vars : Variables) : Json :=
  match value with
  | .string template => .string (step.render template vars)
  | other => other

/-- Sets the variable of an assignment, if there is one. -/
def assign (step : Step) : Option Assignment → Routine (Bot β) (Except ChainError Unit)
  | none => pure (.ok ())
  | some a => Routine.atomic fun bot =>
      bot.storeJson a.scope a.key (assignedJson step a.value bot.vars)

/-- Hands a text to the platform. -/
def send (channel : UInt64) (text : String) : Routine (Bot β) (Except ChainError Unit) :=
  Routine.atomic fun bot =>
    let (bot, result) := bot.send channel text
    (bot, result.mapError .gateway)

/-- Renders and sends the message, if there is one and it has somewhere to
go. -/
def speak (step : Step) (p : Params) : Routine (Bot β) (Except ChainError Unit) :=
  match p.message with
  | none => pure (.ok ())
  | some template => do
    let text ← Routine.read fun bot => step.render template bot.vars
    -- The text is rendered even when it has nowhere to go.
    match p.channel.or step.subject.channelId? with
    | some channel => send channel text
    | none => pure (.ok ())

/-- The built-in action. -/
def handle (step : Step) : Routine (Bot β) Reply :=
  match step.params Params.read? with
  | .error e => pure (step.reply (.error e))
  | .ok p => do
    match ← assign step p.set with
    | .error e => pure (step.reply (.error e))
    | .ok () =>
      match ← speak step p with
      | .error e => pure (step.reply (.error e))
      | .ok () => pure (step.reply (.ok p.continuation))

end Builtin

end ActionChain
