import ActionChain.Mod.Conduct

/-!
# Running Chains

A chain is walked one step at a time. Each step looks up, at that moment,
whether a mod handles actions of the name the action gives; otherwise the
built-in action serves. The handler says where the chain goes, and an index
outside the chain is the ordinary way for a chain to end.

A run counts its steps against the limit of the settings. The limit is on
steps that begin: a run that has used it up is still complete if the next
index lies outside. Every jump is a step, so the recursion is on the steps
that are left.

## Main definitions

* `Chain.handlerOf`: who runs an action.
* `Chain.advance`: one step.
* `Chain.runFrom`, `Chain.run`: a run.
-/

namespace ActionChain.Chain

variable {β : Type} [Conduct β]

/-- The behaviour that runs an action, or none if the built-in action does. -/
def handlerOf (action : Action) (bot : Bot β) : Option β :=
  (action.kind.bind bot.registry.resolve?).bind BotMod.action

/-- One step at an index: where the chain goes, and the arguments as the step
leaves them. -/
def advance (chain : Chain) (subject : Subject) (index : Nat) (args : List String) :
    Routine (Bot β) (Except ChainError Advance × List String) :=
  match chain.actions[index]? with
  | none => pure (.ok .terminated, args)
  | some action => do
    let step : Step := ⟨subject, action, args, chain, index⟩
    let reply ← match ← Routine.read (handlerOf action) with
      | some behaviour => Conduct.handle behaviour step
      | none => Builtin.handle step
    pure (reply.result.map (Continuation.advance index), reply.args)

/-- A run from an index with some steps left of a limit, behind the indices
executed so far, which are given latest first. -/
def runFrom (chain : Chain) (subject : Subject) (limit : Nat) :
    (left index : Nat) → (args : List String) → (executed : List Nat) →
      Routine (Bot β) (Except ChainError Trace)
  | left, index, args, executed =>
    if index < chain.actions.length then
      match left with
      | 0 => pure (.error (.stepLimit chain.name limit))
      | left + 1 => do
        match ← advance chain subject index args with
        | (.error e, _) => pure (.error e)
        | (.ok .terminated, args) => pure (.ok ⟨(index :: executed).reverse, args⟩)
        | (.ok (.next target), args) =>
          runFrom chain subject limit left target args (index :: executed)
    else pure (.ok ⟨executed.reverse, args⟩)

/-- A run from an index, under the limit of the settings. -/
def run (chain : Chain) (subject : Subject) (args : List String) (start : Nat) :
    Routine (Bot β) (Except ChainError Trace) := do
  let limit ← Routine.read fun bot => bot.settings.maxChainSteps
  runFrom chain subject limit limit start args []

end ActionChain.Chain
