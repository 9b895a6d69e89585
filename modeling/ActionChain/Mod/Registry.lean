import ActionChain.Settings

/-!
# The Mod Registry

A mod adds to a bot under a name. It may handle actions of that name, listen
to platform events of that name, or both; the two capabilities live in
separate tables and never affect each other. One action handler is bound per
name, and registering another either replaces it or is refused, as the
settings say. Any number of listeners share a name and are kept in the order
they came.

What a capability does is not described here: the type of behaviours is a
parameter. What starting up does is: a mod may register further mods, its
companions, and may fail in the end. Failing binds nothing of its own, but
companions stay. Whether a name is free is asked before a mod starts up and
not again afterwards.

## Main definitions

* `BotMod`: a name, companions, the verdict of starting up, capabilities.
* `Registry`: action handlers by name, and listeners in order.
* `Registry.bind`: a started mod's capabilities entered.
* `RegistryError`: why a mod was not registered.

## Theorems

* `Registry.resolve?_bind`, `Registry.listenersOf_bind`: what binding does to
  either table.
-/

namespace ActionChain

variable {β : Type}

/-- An addition to a bot, with behaviours of type `β`. -/
structure BotMod (β : Type) where
  name : String
  /-- The name under which its start and its companions are noted; without one
  nothing is. -/
  label : Option String
  /-- The mods it registers while it starts up. -/
  companions : List (BotMod β)
  /-- Why it fails to start up, if it does. -/
  failure : Option String
  /-- What it does about events of its name. -/
  listener : Option β
  /-- What it does about actions of its name. -/
  action : Option β

/-- Why a mod was not registered. -/
inductive RegistryError where
  | duplicate (name : String)
  | init (name reason : String)
  deriving DecidableEq

namespace RegistryError

/-- The wording of an error. -/
def message : RegistryError → String
  | .duplicate name => "A mod named '" ++ name ++ "' is already registered"
  | .init name reason => "Mod '" ++ name ++ "' failed to initialize: " ++ reason

end RegistryError

/-- The mods of a bot, by capability. -/
structure Registry (β : Type) where
  actions : Dict String (BotMod β)
  /-- All mods that listen, in the order of their registration. -/
  listeners : List (BotMod β)

namespace Registry

/-- No mods. -/
def empty : Registry β := ⟨Dict.empty, []⟩

/-- The mod that handles actions of a name. -/
def resolve? (r : Registry β) (name : String) : Option (BotMod β) := r.actions.get? name

/-- The mods that listen to events of a name, in the order of their
registration. -/
def listenersOf (r : Registry β) (name : String) : List (BotMod β) :=
  r.listeners.filter fun m => m.name == name

/-- Whether a policy refuses a mod that has not started up yet. -/
def refuses (r : Registry β) (policy : DuplicatePolicy) (m : BotMod β) : Bool :=
  m.action.isSome && policy == .reject && (r.resolve? m.name).isSome

/-- Enters the capabilities of a mod. -/
def bind (r : Registry β) (m : BotMod β) : Registry β :=
  { actions := if m.action.isSome then r.actions.insert m.name m else r.actions
    listeners := if m.listener.isSome then r.listeners ++ [m] else r.listeners }

/-- How many names have an action handler. -/
def actionCount (r : Registry β) : Nat := r.actions.size

/-- How many listeners there are under all names. -/
def listenerCount (r : Registry β) : Nat := r.listeners.length

@[simp] theorem resolve?_bind (r : Registry β) (m : BotMod β) (name : String) :
    (r.bind m).resolve? name =
      if m.action.isSome ∧ name = m.name then some m else r.resolve? name := by
  unfold bind resolve?
  cases h : m.action.isSome <;> simp

@[simp] theorem listenersOf_bind (r : Registry β) (m : BotMod β) (name : String) :
    (r.bind m).listenersOf name =
      r.listenersOf name ++ if m.listener.isSome ∧ m.name = name then [m] else [] := by
  unfold bind listenersOf
  cases h : m.listener.isSome <;> by_cases hn : m.name = name <;> simp [hn]

end Registry

end ActionChain
