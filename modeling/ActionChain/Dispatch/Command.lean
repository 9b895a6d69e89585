import ActionChain.Dispatch.Event
import ActionChain.Permission

/-!
# Dispatching Commands

A message that no bot wrote sets off the event for any message and passes the
spam guard. If it starts with the marker it is an invocation: the first word
behind the marker is the name of a command, the other words are arguments.
Every configured command of that name runs, if the author's roles allow it.
Only someone who was allowed at least once is recorded. At the end everything
is written, once.

Words are separated by spaces alone. Blanks of any kind are dropped at the
ends of the invocation and belong to the words inside it.

## Main definitions

* `Invocation`: a name and arguments.
* `Invocation.parse?`: the invocation a message holds.
* `MessageOutcome`: what came of a message.
* `Dispatch.message`: all of the above.
-/

namespace ActionChain

/-- The name of a command and arguments. -/
structure Invocation where
  name : String
  args : List String
  deriving DecidableEq, Repr

namespace Invocation

/-- What follows a marker at the front. -/
def behind? : (marker : List Char) → List Char → Option (List Char)
  | [], cs => some cs
  | m :: marker, c :: cs => if m = c then behind? marker cs else none
  | _ :: _, [] => none

/-- What stands between spaces, empty where two spaces meet. -/
def pieces : List Char → List (List Char)
  | [] => [[]]
  | c :: rest =>
    if c = ' ' then [] :: pieces rest
    else
      match pieces rest with
      | [] => [[c]]
      | piece :: more => (c :: piece) :: more

/-- The words between spaces. -/
def words (cs : List Char) : List (List Char) := (pieces cs).filter fun piece => !piece.isEmpty

/-- The invocation that words spell; without words the name is empty. -/
def ofWords : List (List Char) → Invocation
  | [] => ⟨"", []⟩
  | name :: args => ⟨String.ofList name, args.map String.ofList⟩

/-- The invocation a message holds, if it starts with the marker. -/
def parse? (marker content : String) : Option Invocation :=
  (behind? marker.toList content.toList).map fun rest => ofWords (words (Text.trimBlanks rest))

end Invocation

/-- What came of a message. -/
inductive MessageOutcome where
  /-- A bot wrote it; nothing happened. -/
  | ignoredBot
  /-- It was no invocation. -/
  | chatter
  /-- It was an invocation: the runs that completed, in the order of the
  configuration, and how many commands the author was not allowed. -/
  | command (name : String) (runs : List Trace) (denied : Nat)
  deriving DecidableEq

namespace Dispatch

variable {β : Type} [Conduct β]

/-- What came of the commands of a name. -/
structure Tally where
  runs : List Trace
  denied : Nat
  /-- Whether one was allowed, even if it had nothing to run. -/
  authorized : Bool

/-- Runs the commands a message's author is allowed, in order, each with the
arguments as they were typed. -/
def runCommands (m : Message) (args : List String) : List Command → Routine (Bot β) Tally
  | [] => pure ⟨[], 0, false⟩
  | c :: rest =>
    if !authorize c m.roles then do
      let tally ← runCommands m args rest
      pure { tally with denied := tally.denied + 1 }
    else if c.chain.actions.isEmpty then do
      let tally ← runCommands m args rest
      pure { tally with authorized := true }
    else do
      -- A failing run is not reported, and the next command runs all the same.
      let result ← c.chain.run (.message m) args 0
      let tally ← runCommands m args rest
      let completed := match result with
        | .ok trace => [trace]
        | .error _ => []
      pure { tally with runs := completed ++ tally.runs, authorized := true }

/-- The configured commands of a name, in order. -/
def commandsNamed (bot : Bot β) (name : String) : List Command :=
  bot.commands.filter fun c => c.chain.name == name

/-- Deals with a message at a time of the clock. -/
def message (m : Message) (now : Instant) : Routine (Bot β) MessageOutcome :=
  if m.author.bot then pure .ignoredBot
  else do
    let _ ← runEvent EventName.anyMessage (.message m)
    Routine.modify fun bot => bot.inspect m
    let marker ← Routine.read fun bot => bot.settings.marker
    match Invocation.parse? marker m.content with
    | none => pure .chatter
    | some invocation => do
      let commands ← Routine.read fun bot => commandsNamed bot invocation.name
      let tally ← runCommands m invocation.args commands
      if tally.authorized then
        Routine.modify fun bot => { bot with users := bot.users.recordCommand m.author now }
      -- This happens even when nobody was allowed.
      Routine.modify Bot.persist
      pure (.command invocation.name tally.runs tally.denied)

end Dispatch

end ActionChain
