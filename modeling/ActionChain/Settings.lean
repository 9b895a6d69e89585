import ActionChain.Json.Decode
import ActionChain.Text.Blank

/-!
# Settings

The knobs of a bot. Everything but the marker of commands has a default.

## Main definitions

* `DuplicatePolicy`: what happens when two mods want the same action name.
* `GuildPoll`: how often the guild list is looked at.
* `Settings`: all settings, with `Settings.standard` the defaults.
-/

namespace ActionChain

/-- What happens when a second mod wants an action name. -/
inductive DuplicatePolicy where
  /-- The last registration wins. -/
  | overwrite
  /-- The first registration stays and the second is an error. -/
  | reject
  deriving DecidableEq

namespace DuplicatePolicy

/-- The name of a policy. -/
def name : DuplicatePolicy → String
  | .overwrite => "overwrite"
  | .reject => "reject"

/-- The policy a source names. -/
def read? (source : Source) : Option DuplicatePolicy :=
  match source.bareName? with
  | some "overwrite" => some .overwrite
  | some "reject" => some .reject
  | _ => none

end DuplicatePolicy

/-- How often the guild list is looked at while guilds are unavailable. -/
structure GuildPoll where
  /-- Milliseconds between two looks. -/
  interval : Nat
  /-- How many looks there are at most; without a bound they go on until every
  guild is available. -/
  maxAttempts : Option Nat
  deriving DecidableEq

namespace GuildPoll

/-- Twice a second, without a bound. -/
def standard : GuildPoll := ⟨500, none⟩

/-- A policy read from a record. -/
def read? (source : Source) : Option GuildPoll := do
  let field ← source.record? ["interval_ms", "max_attempts"]
  let interval ← Source.withDefault 500 (Source.natural? UInt64.size) (field "interval_ms")
  let maxAttempts ←
    Source.withDefault none (Source.nullable? (Source.natural? UInt32.size)) (field "max_attempts")
  pure ⟨interval, maxAttempts⟩

end GuildPoll

/-- The settings of a bot. -/
structure Settings where
  /-- What a message starts with that invokes a command. -/
  marker : String
  token : String
  duplicateMods : DuplicatePolicy
  guildPoll : GuildPoll
  /-- How many steps a chain may execute. -/
  maxChainSteps : Nat
  deriving DecidableEq

namespace Settings

/-- The defaults, with an exclamation mark as the marker. -/
def standard : Settings := ⟨"!", "", .overwrite, .standard, 10000⟩

/-- Settings read from a record. -/
def read? (source : Source) : Option Settings := do
  let field ← source.record?
    ["prefix", "token", "duplicate_mods", "guild_poll", "max_chain_steps"]
  let marker ← Source.required Source.text? (field "prefix")
  let token ← Source.withDefault "" Source.text? (field "token")
  let duplicateMods ← Source.withDefault .overwrite DuplicatePolicy.read? (field "duplicate_mods")
  let guildPoll ← Source.withDefault .standard GuildPoll.read? (field "guild_poll")
  let maxChainSteps ←
    Source.withDefault 10000 (Source.natural? UInt64.size) (field "max_chain_steps")
  pure ⟨marker, token, duplicateMods, guildPoll, maxChainSteps⟩

end Settings

end ActionChain
