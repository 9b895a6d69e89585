import ActionChain.Proofs.Chain.Compaction
import ActionChain.Proofs.Variables.Table

/-!
# Running on a Table

The built-in action, the shipped mods and the run around them once more, for a
bot that keeps its variables in a table.

This is how one thinks of a chain when writing one. A placeholder is looked up,
an assignment binds a key, and that is all there is to variables: no arena, no
references, nothing that two keys could share. Storing cannot fail, and no
handler asks for more than the table and what lies outside the variables
anyway. Parameters, messages, chance and the limit on steps are what they were.

One thing has no counterpart. The complaint about a structured value that
should be a number shows where the value lies; here it lies nowhere, and is
shown as if it came first.

## Main definitions

* `Tabled`: a bot with a table for its variables.
* `Template.renderIn`: a template with its variables looked up in a table.
* `Tabled.builtin`, `Tabled.shipped`: the handlers.
* `Tabled.advance`, `Tabled.report`: a step, and a run with the steps it began.
-/

namespace ActionChain

variable {β : Type}

/-- A bot with a table for its variables. Those of the bot are never looked
at. -/
structure Tabled (β : Type) where
  bot : Bot β
  table : Table

/-! ## Templates -/

namespace Template

/-- What a placeholder stands for. -/
def Placeholder.valueIn (subject : Subject) (args : List String) (table : Table) :
    Placeholder → String
  | .keyed s key =>
    ((table.get? s (String.ofList (Text.trimBlanks key))).map Plain.display).getD ""
  -- The others have nothing to do with variables.
  | other => other.value subject args .empty

/-- The text of a piece. -/
def Piece.valueIn (subject : Subject) (args : List String) (table : Table) : Piece → List Char
  | .literal c => [c]
  | .placeholder p => (p.valueIn subject args table).toList

/-- A template with every placeholder replaced by its value. -/
def renderIn (template : String) (subject : Subject) (args : List String) (table : Table) :
    String :=
  String.ofList ((split template.toList).flatMap (Piece.valueIn subject args table))

end Template

namespace Tabled

/-! ## The built-in action -/

/-- What an assignment stores: a text is a template, everything else stands for
itself. -/
def assigned (step : Step) (value : Json) (table : Table) : Plain :=
  match value with
  | .string template => .text (Template.renderIn template step.subject step.args table)
  | other => .ofJson other

/-- Sets the variable of an assignment, if there is one. -/
def assign (step : Step) :
    Option Builtin.Assignment → Routine (Tabled β) (Except ChainError Unit)
  | none => pure (.ok ())
  | some a => Routine.atomic fun t =>
      ({ t with table := t.table.set a.scope a.key (assigned step a.value t.table) }, .ok ())

/-- Hands a text to the platform. -/
def send (channel : UInt64) (text : String) : Routine (Tabled β) (Except ChainError Unit) :=
  Routine.atomic fun t =>
    let (bot, result) := t.bot.send channel text
    ({ t with bot }, result.mapError .gateway)

/-- Renders and sends the message, if there is one and it has somewhere to
go. -/
def speak (step : Step) (p : Builtin.Params) : Routine (Tabled β) (Except ChainError Unit) :=
  match p.message with
  | none => pure (.ok ())
  | some template => do
    let text ← Routine.read fun t => Template.renderIn template step.subject step.args t.table
    match p.channel.or step.subject.channelId? with
    | some channel => send channel text
    | none => pure (.ok ())

/-- The built-in action. -/
def builtin (step : Step) : Routine (Tabled β) Reply :=
  match step.params Builtin.Params.read? with
  | .error e => pure (step.reply (.error e))
  | .ok p => do
    match ← assign step p.set with
    | .error e => pure (step.reply (.error e))
    | .ok () =>
      match ← speak step p with
      | .error e => pure (step.reply (.error e))
      | .ok () => pure (step.reply (.ok p.continuation))

/-! ## The shipped mods -/

/-- Whether a variable's tree is the expected one. -/
def holds (p : Shipped.Comparison) (table : Table) : Bool :=
  ((table.get? p.scope p.key).getD .null).toJson.agrees (Plain.ofJson p.equals).toJson

/-- A plain value with its kind, as an error shows it. -/
def describe : Plain → String
  | .null => Value.null.describe
  | .bool b => (Value.bool b).describe
  | .number x => (Value.number x).describe
  | .text s => (Value.text s).describe
  | .tree _ => (Value.ref 0).describe

/-- The number a variable stands for in an addition. -/
def numberOf (key : String) : Option Plain → Except ChainError Binary64
  | none => .ok .zero
  | some .null => .ok .zero
  | some (.number x) => .ok x
  | some other =>
    .error (Shipped.fail .incrementVar ("'" ++ key ++ "' is not a number: " ++ describe other))

/-- Adds to a variable. -/
def increment (p : Shipped.Increment) (t : Tabled β) : Tabled β × Except ChainError Unit :=
  match numberOf p.key (t.table.get? p.scope p.key) with
  | .error e => (t, .error e)
  | .ok x => ({ t with table := t.table.set p.scope p.key (.number (x + p.amount)) }, .ok ())

/-- Stores one of the choices, as chance has it. -/
def choose (p : Shipped.Choice) (t : Tabled β) : Tabled β × Except ChainError Unit :=
  if p.choices.isEmpty then (t, .error (Shipped.fail .randomPick "no choices given"))
  else
    let (bot, number) := t.bot.draw
    let text := (p.choices[number % p.choices.length]?).getD ""
    (⟨bot, t.table.set p.scope p.key (.text text)⟩, .ok ())

/-- What a shipped mod does about an action. -/
def shipped (s : Shipped) (step : Step) : Routine (Tabled β) Reply :=
  match s with
  | .ifVar =>
    match step.params Shipped.Comparison.read? with
    | .error e => pure (step.reply (.error e))
    | .ok p => do
      let holds ← Routine.read fun t => holds p t.table
      pure (step.reply (.ok (p.continuation holds)))
  | .incrementVar =>
    match step.params Shipped.Increment.read? with
    | .error e => pure (step.reply (.error e))
    | .ok p => return Shipped.andNext step (← Routine.atomic (increment p))
  | .wait =>
    match step.params Shipped.readPause? with
    | .error e => pure (step.reply (.error e))
    | .ok ms => do
      Routine.pause ms
      pure (Shipped.andNext step (.ok ()))
  | .randomPick =>
    match step.params Shipped.Choice.read? with
    | .error e => pure (step.reply (.error e))
    | .ok p => return Shipped.andNext step (← Routine.atomic (choose p))
  | .joinLogger => pure (Shipped.andNext step (.ok ()))

/-! ## Runs -/

/-- One step at an index: where the chain goes, and the arguments as the step
leaves them. -/
def advance (chain : Chain) (subject : Subject) (index : Nat) (args : List String) :
    Routine (Tabled Shipped) (Except ChainError Advance × List String) :=
  match chain.actions[index]? with
  | none => pure (.ok .terminated, args)
  | some action => do
    let step : Step := ⟨subject, action, args, chain, index⟩
    let reply ← match ← Routine.read fun t => Chain.handlerOf action t.bot with
      | some behaviour => shipped behaviour step
      | none => builtin step
    pure (reply.result.map (Continuation.advance index), reply.args)

/-- A run from an index that keeps the indices of the steps begun, latest
first. -/
def reportFrom (chain : Chain) (subject : Subject) (limit : Nat) :
    (left index : Nat) → (args : List String) → (started : List Nat) →
      Routine (Tabled Shipped) Chain.Report
  | left, index, args, started =>
    if index < chain.actions.length then
      match left with
      | 0 => pure ⟨started.reverse, .error (.stepLimit chain.name limit)⟩
      | left + 1 => do
        match ← advance chain subject index args with
        | (.error e, _) => pure ⟨(index :: started).reverse, .error e⟩
        | (.ok .terminated, args) =>
          pure ⟨(index :: started).reverse, .ok ⟨(index :: started).reverse, args⟩⟩
        | (.ok (.next target), args) =>
          reportFrom chain subject limit left target args (index :: started)
    else pure ⟨started.reverse, .ok ⟨started.reverse, args⟩⟩

/-- A run from an index under the limit of the settings. -/
def report (chain : Chain) (subject : Subject) (args : List String) (start : Nat) :
    Routine (Tabled Shipped) Chain.Report := do
  let limit ← Routine.read fun t => t.bot.settings.maxChainSteps
  reportFrom chain subject limit limit start args []

end Tabled

end ActionChain
