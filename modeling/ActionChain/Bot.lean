import ActionChain.Chain.Outcome
import ActionChain.Config
import ActionChain.Event
import ActionChain.Mod.Registry
import ActionChain.Routine

/-!
# Bots

The state that every dispatcher, chain step and mod shares. It holds the
configuration, the mods, the variables, the user cache, the guilds seen so
far and the data directory.

What lies outside the bot is part of the state as far as the bot can notice
it. The chat platform is a function that decides on each message, possibly in
view of everything handed to it before; what was handed to it is recorded
with the decision. Chance is a sequence of numbers that are taken one after
the other. The spam guard and the mods' notes only ever receive, so they are
records of what they received.

## Main definitions

* `Gateway`, `Delivery`: the platform's decisions.
* `Note`: what a mod notes about itself.
* `Bot`: the shared state.
* `Bot.load`: a bot from its configuration and its data directory.
* `Bot.send`, `Bot.persist`, `Bot.register`: what can be done with it.
-/

namespace ActionChain

/-- A message handed to the platform, with its refusal if it was refused. -/
structure Delivery where
  channel : UInt64
  text : String
  refusal : Option String
  deriving DecidableEq

/-- The platform's decision on a message, in view of all messages before: a
reason to refuse it, or none. -/
abbrev Gateway := List Delivery → UInt64 → String → Option String

/-- What a mod notes about itself. -/
inductive Note where
  /-- It started up. -/
  | started
  /-- It registered a companion, which may have failed. -/
  | registered (error : Option RegistryError)
  /-- It heard of an event. -/
  | heard (busName subject : String)
  /-- It was asked to run an action. -/
  | acted (index : Nat) (chain : String) (args : List String) (params : List (String × Json))
      (subject : String)

/-- The state of a bot whose mods have behaviours of type `β`. -/
structure Bot (β : Type) where
  settings : Settings
  rules : Json
  commands : List Command
  events : List Chain
  registry : Registry β
  vars : Variables
  users : UserCache
  /-- The guilds that have been initialized, in order. -/
  loadedGuilds : List UInt64
  storage : Storage
  gateway : Gateway
  /-- Everything handed to the platform, in order. -/
  deliveries : List Delivery
  /-- The numbers that chance brings up, and how many were taken. -/
  chance : Nat → Nat
  taken : Nat
  /-- Every message the spam guard saw with the rules it came with, in order. -/
  inspected : List (Message × Json)
  /-- The notes of the mods by label, in order. -/
  notes : List (String × Note)

namespace Bot

variable {β : Type}

/-- A bot at its start. -/
def load (c : Config) (s : Storage) (gateway : Gateway) (chance : Nat → Nat) : Bot β where
  settings := c.settings
  rules := c.rules
  commands := c.commands
  events := c.events
  registry := .empty
  vars := s.loadVariables
  users := s.loadUsers
  loadedGuilds := []
  storage := s
  gateway
  deliveries := []
  chance
  taken := 0
  inspected := []
  notes := []

/-- Hands a message to the platform. -/
def send (bot : Bot β) (channel : UInt64) (text : String) : Bot β × Except GatewayError Unit :=
  let refusal := bot.gateway bot.deliveries channel text
  let bot := { bot with deliveries := bot.deliveries ++ [⟨channel, text, refusal⟩] }
  match refusal with
  | none => (bot, .ok ())
  | some reason => (bot, .error ⟨channel, reason⟩)

/-- The next number of chance. -/
def draw (bot : Bot β) : Bot β × Nat := ({ bot with taken := bot.taken + 1 }, bot.chance bot.taken)

/-- Adds a note under a label, or nothing without one. -/
def note (bot : Bot β) (label : Option String) (n : Note) : Bot β :=
  match label with
  | some label => { bot with notes := bot.notes ++ [(label, n)] }
  | none => bot

/-- Hands a message to the spam guard. -/
def inspect (bot : Bot β) (m : Message) : Bot β :=
  { bot with inspected := bot.inspected ++ [(m, bot.rules)] }

/-- The configured events of a name, in order. -/
def findEvents (bot : Bot β) (name : String) : List Chain :=
  bot.events.filter fun e => e.name == name

/-- Writes the user cache and both scopes, then forgets the nodes no root
reaches. A failure to write one of them stops none of the rest. -/
def persist (bot : Bot β) : Bot β :=
  let (storage, _) := bot.storage.flushUsers bot.users
  let (storage, _) := storage.flushVariables bot.vars
  { bot with storage, vars := bot.vars.compact.1 }

mutual

/-- Starts a mod up and enters its capabilities. A mod whose action name is
taken is refused before it starts up, if the settings say so; one that fails
to start up is not entered. -/
def register : BotMod β → Bot β → Bot β × Except RegistryError Unit
  | ⟨name, label, companions, failure, listener, action⟩, bot =>
    let m : BotMod β := ⟨name, label, companions, failure, listener, action⟩
    if bot.registry.refuses bot.settings.duplicateMods m then (bot, .error (.duplicate name))
    else
      -- Companions are entered first, and stay when the mod itself fails.
      let bot := registerCompanions label companions (bot.note label .started)
      match failure with
      | some reason => (bot, .error (.init name reason))
      | none => ({ bot with registry := bot.registry.bind m }, .ok ())

/-- Registers the companions of a mod in order, noting how each fared. -/
def registerCompanions (label : Option String) : List (BotMod β) → Bot β → Bot β
  | [], bot => bot
  | m :: rest, bot =>
    let (bot, result) := register m bot
    let error := match result with
      | .ok () => none
      | .error e => some e
    registerCompanions label rest (bot.note label (.registered error))

end

/-- Registers mods in order, passing over the ones that cannot be, and returns
how many could. -/
def registerAll : List (BotMod β) → Bot β → Bot β × Nat
  | [], bot => (bot, 0)
  | m :: rest, bot =>
    let (bot, result) := register m bot
    let (bot, n) := registerAll rest bot
    (bot, (match result with | .ok () => 1 | .error _ => 0) + n)

end Bot

end ActionChain
