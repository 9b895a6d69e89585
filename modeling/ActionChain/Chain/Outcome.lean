import ActionChain.Variables.Graph

/-!
# Outcomes of Steps and Runs

What a handler asks for after its step, where a chain goes next, what a
finished run did, and the ways it can fail. Errors say their cause; the
wording is a function of it.

## Main definitions

* `Continuation`: what a handler asks for.
* `Advance`: where a chain goes after a step.
* `Trace`: what a finished run did.
* `ChainError`: why a run ended early.
-/

namespace ActionChain

/-- What a handler asks for after its step. -/
inductive Continuation where
  /-- The next action in order. -/
  | next
  /-- The action at an index; an index outside the chain ends it. -/
  | goto (target : Nat)
  /-- The end of the chain. -/
  | stop
  deriving DecidableEq, Repr

/-- Where a chain goes after a step. -/
inductive Advance where
  | next (index : Nat)
  | terminated
  deriving DecidableEq, Repr

namespace Continuation

/-- Where a continuation leads from an index. -/
def advance (index : Nat) : Continuation → Advance
  | .next => .next (index + 1)
  | .goto target => .next target
  | .stop => .terminated

end Continuation

/-- What a finished run did. -/
structure Trace where
  /-- The indices in the order they were executed. -/
  executed : List Nat
  args : List String
  deriving DecidableEq, Repr

/-- Why a message was not sent. -/
structure GatewayError where
  channel : UInt64
  reason : String
  deriving DecidableEq

namespace GatewayError

/-- The wording of an error. -/
def message (e : GatewayError) : String :=
  "Failed to send message to channel " ++ toString e.channel ++ ": " ++ e.reason

end GatewayError

/-- Why a run ended early. -/
inductive ChainError where
  /-- A mod reported a failure. -/
  | mod (name reason : String)
  /-- The parameters of the action at an index do not fit its handler. -/
  | invalidParams (index : Nat)
  /-- A message was not sent. -/
  | gateway (e : GatewayError)
  /-- A variable could not be written. -/
  | graph (e : GraphError)
  /-- The chain was about to execute more steps than allowed. -/
  | stepLimit (chain : String) (limit : Nat)
  deriving DecidableEq

namespace ChainError

/-- The wording of an error. -/
def message : ChainError → String
  | .mod name reason => "Mod '" ++ name ++ "' failed: " ++ reason
  | .invalidParams index => "Invalid parameters for action " ++ toString index
  | .gateway e => "Gateway error: " ++ e.message
  | .graph e => "Variable error: " ++ e.message
  | .stepLimit chain limit =>
    "Chain '" ++ chain ++ "' exceeded " ++ toString limit ++ " steps"

end ChainError

end ActionChain
