import ActionChain.Json.Decode
import ActionChain.Variables.Numbering

/-!
# Scopes

The variables of a bot live in two scopes, each a graph of its own with its
own file. Nothing refers from one scope into the other.

## Main definitions

* `Scope`: server or global.
* `Variables`: a graph per scope.
* `Variables.compact`: compaction of both.

## Theorems

* `Variables.scope_update`: writing one scope leaves the other alone.
-/

namespace ActionChain

/-- Which of the two graphs an action works on. -/
inductive Scope where
  | server
  | global
  deriving DecidableEq

namespace Scope

/-- The name of a scope. -/
def name : Scope → String
  | .server => "server"
  | .global => "global"

/-- The scope a source names. -/
def read? (source : Source) : Option Scope :=
  match source.bareName? with
  | some "server" => some .server
  | some "global" => some .global
  | _ => none

end Scope

/-- A graph per scope. -/
structure Variables where
  server : Graph
  global : Graph
  deriving DecidableEq

namespace Variables

/-- No variables in either scope. -/
def empty : Variables := ⟨Graph.empty, Graph.empty⟩

instance : Inhabited Variables := ⟨empty⟩

/-- The graph of a scope. -/
def scope (vars : Variables) : Scope → Graph
  | .server => vars.server
  | .global => vars.global

/-- The variables with the graph of a scope replaced. -/
def update (vars : Variables) : Scope → Graph → Variables
  | .server, g => { vars with server := g }
  | .global, g => { vars with global := g }

theorem scope_update (vars : Variables) (s t : Scope) (g : Graph) :
    (vars.update s g).scope t = if s = t then g else vars.scope t := by
  cases s <;> cases t <;> rfl

/-- Both scopes are well-formed. -/
def WellFormed (vars : Variables) : Prop := vars.server.WellFormed ∧ vars.global.WellFormed

/-- Compacts both scopes and returns how many nodes were forgotten. -/
def compact (vars : Variables) : Variables × Nat :=
  let (server, m) := vars.server.compact
  let (global, n) := vars.global.compact
  (⟨server, global⟩, m + n)

end Variables

end ActionChain
