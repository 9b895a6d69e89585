import ActionChain.Mod.Shipped

/-!
# Scripted Mods

Mods whose answers are laid down in advance. A scripted mod notes everything
that is shown to it under a label and then does what its script says: fail,
clear and extend the arguments, continue somewhere. It is the means to watch
a bot from the inside.

Behaviours that are shipped or scripted form one type, so that both kinds of
mods can live in one bot.

## Main definitions

* `Script`: what a scripted mod does.
* `Performer`: a shipped or scripted behaviour.
-/

namespace ActionChain

/-- What a scripted mod does about an action. -/
structure ActionScript where
  /-- Whether the arguments are cleared. -/
  clear : Bool
  /-- What is added to the arguments, cleared or not. -/
  push : List String
  /-- What it asks for, or the reason it fails with. -/
  answer : Except String Continuation

/-- What a scripted mod does, under the label it makes its notes under. -/
inductive Script where
  /-- Listens, and fails with a reason if it has one. -/
  | listener (label : String) (failure : Option String)
  /-- Handles actions of a name. -/
  | action (label name : String) (script : ActionScript)

namespace Script

variable {β : Type}

/-- Makes a note. -/
def note (label : String) (n : Note) : Routine (Bot β) Unit :=
  Routine.modify fun bot => bot.note (some label) n

/-- What a script does about an event. -/
def onEvent (s : Script) (e : PlatformEvent) : Routine (Bot β) (Except String Unit) :=
  match s with
  | .listener label failure => do
    note label (.heard e.busName e.subject.describe)
    match failure with
    | some reason => pure (.error reason)
    | none => pure (.ok ())
  | .action _ _ _ => pure (.ok ())

/-- What a script does about an action. -/
def handle (s : Script) (step : Step) : Routine (Bot β) Reply :=
  match s with
  | .listener _ _ => pure (step.reply (.ok .next))
  | .action label name script => do
    note label (.acted step.index step.chain.name step.args step.action.params
      step.subject.describe)
    let kept := if script.clear then [] else step.args
    pure ⟨script.answer.mapError (.mod name), kept ++ script.push⟩

end Script

/-- A shipped or scripted behaviour. -/
inductive Performer where
  | shipped (s : Shipped)
  | scripted (s : Script)

namespace Performer

instance : Conduct Performer where
  onEvent
    | .shipped s, e => s.onEvent e
    | .scripted s, e => s.onEvent e
  handle
    | .shipped s, step => s.handle step
    | .scripted s, step => s.handle step

end Performer

/-- A mod with scripts for its capabilities. -/
structure ScriptedMod where
  label : String
  name : String
  companions : List (BotMod Performer)
  failure : Option String
  /-- Whether it listens, and with which failure. -/
  listener : Option (Option String)
  action : Option ActionScript

namespace ScriptedMod

/-- The mod of a script. -/
def toMod (s : ScriptedMod) : BotMod Performer where
  name := s.name
  label := some s.label
  companions := s.companions
  failure := s.failure
  listener := s.listener.map fun failure => .scripted (.listener s.label failure)
  action := s.action.map fun script => .scripted (.action s.label s.name script)

end ScriptedMod

end ActionChain
