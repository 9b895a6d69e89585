import ActionChain.Json.Decode
import ActionChain.Text.Blank

/-!
# The Control Channel

The process that supervises a bot writes one message per line to its standard
input. Only one message means anything, the request to stop. A line that is no
message, or a message that asks for something else, is passed over. Reading
ends for good at the request, at the end of the input, and at a line that is
not text; after the last two an interrupt is all that can stop the bot.

## Main definitions

* `ControlMessage.parse?`: the message a line holds.
* `Control.lines`: the lines of a sequence of octets.
* `Control.watch`: reading line by line.
* `Control.StopReason`, `Control.wait?`: what ends the waiting.
-/

namespace ActionChain

/-- A message of the supervising process. -/
structure ControlMessage where
  action : String
  deriving DecidableEq

namespace ControlMessage

/-- A message read from a record. -/
def read? (source : Source) : Option ControlMessage := do
  let field ← source.record? ["action"]
  let action ← Source.required Source.text? (field "action")
  pure ⟨action⟩

/-- The message a line holds between its blanks. -/
def parse? (line : String) : Option ControlMessage :=
  (Source.parse? (Symbols.ofString (Text.trim line))).bind read?

/-- Whether a message asks the bot to stop. -/
def isStop (m : ControlMessage) : Bool := m.action == "STOP"

end ControlMessage

namespace Control

/-- Why a bot stopped. -/
inductive StopReason where
  /-- The supervising process asked for it. -/
  | hostRequest
  | interrupt
  deriving DecidableEq, Repr

/-- The octet that ends a line. -/
def lineFeed : UInt8 := 0x0A

/-- The lines of a sequence of octets, without the octets that end them. What
follows the last line feed is a line too unless it is empty. -/
def lines : List UInt8 → List (List UInt8)
  | [] => []
  | b :: rest =>
    if b = lineFeed then [] :: lines rest
    else
      match lines rest with
      | [] => [[b]]
      | line :: more => (b :: line) :: more

/-- How reading lines ended. -/
inductive Ending where
  /-- A line asked to stop. -/
  | requested
  /-- There were no lines left. -/
  | closed
  /-- A line was no text. -/
  | unreadable
  deriving DecidableEq, Repr

/-- Reads lines one after the other until one ends the reading, and returns the
lines behind it with how it ended. -/
def watch : List (List UInt8) → Ending × List (List UInt8)
  | [] => (.closed, [])
  | line :: rest =>
    match Symbols.text? (Utf8.decode line) with
    | none => (.unreadable, rest)
    | some text =>
      match ControlMessage.parse? text with
      | some m => if m.isStop then (.requested, rest) else watch rest
      | none => watch rest

/-- What ends the waiting once the input is read to its end: a request in it,
or else an interrupt if one arrives. -/
def wait? (input : List UInt8) (interrupted : Bool) : Option StopReason :=
  match (watch (lines input)).1 with
  | .requested => some .hostRequest
  | .closed | .unreadable => if interrupted then some .interrupt else none

end Control

end ActionChain
