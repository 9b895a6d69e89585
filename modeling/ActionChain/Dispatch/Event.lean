import ActionChain.Chain.Run

/-!
# Dispatching Events

An event first goes to every mod that listens under its bus name, then sets
off the configured chains of the name it maps to. Nothing that fails on the
way stops what comes after it: a failing listener is passed over, and a
failing chain is merely not counted. What a failing chain did before it
failed stays done.

## Main definitions

* `Dispatch.emit`: telling the listeners.
* `Dispatch.runEvent`: running the configured chains of a name.
* `Dispatch.event`: both.
-/

namespace ActionChain.Dispatch

variable {β : Type} [Conduct β]

/-- Tells mods about an event, in order. -/
def tell (e : PlatformEvent) : List (BotMod β) → Routine (Bot β) Unit
  | [] => pure ()
  | m :: rest => do
    match m.listener with
    | some behaviour =>
      let _ ← Conduct.onEvent behaviour e
      tell e rest
    | none => tell e rest

/-- Tells every mod that listens at the start, in the order of registration. -/
def emit (e : PlatformEvent) : Routine (Bot β) Unit := do
  let listeners ← Routine.read fun bot => bot.registry.listenersOf e.busName
  tell e listeners

/-- Runs chains in order, each from its first action without arguments, and
counts those that complete. Empty chains are passed over. -/
def runAll (subject : Subject) : List Chain → Routine (Bot β) Nat
  | [] => pure 0
  | chain :: rest =>
    if chain.actions.isEmpty then runAll subject rest
    else do
      let result ← chain.run subject [] 0
      let completed ← runAll subject rest
      pure ((match result with | .ok _ => 1 | .error _ => 0) + completed)

/-- Runs the configured events of a name. -/
def runEvent (name : String) (subject : Subject) : Routine (Bot β) Nat := do
  let chains ← Routine.read fun bot => bot.findEvents name
  runAll subject chains

/-- Tells the listeners and runs the configured events; returns how many chains
completed. -/
def event (e : PlatformEvent) : Routine (Bot β) Nat := do
  emit e
  match e.eventName? with
  | some name => runEvent name e.subject
  | none => pure 0

end ActionChain.Dispatch
