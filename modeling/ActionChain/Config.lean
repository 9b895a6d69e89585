import ActionChain.Chain.Action
import ActionChain.Settings
import ActionChain.Storage

/-!
# Configuration

Everything a bot reads once at its start: the settings, the rules of the spam
guard, the commands and the events. The files are looked at in a fixed order
and the first fault is reported. A token comes from the settings or, when
those leave it blank, from the surroundings; without one there is no bot, and
that is noticed before any other file is opened. Only the rules may be
missing.

## Main definitions

* `Config`: what was read.
* `ConfigError`: the first fault.
* `Config.load`: reading everything.
-/

namespace ActionChain

/-- Everything a bot reads at its start. -/
structure Config where
  settings : Settings
  /-- The rules of the spam guard, handed on as they are. -/
  rules : Json
  commands : List Command
  events : List Chain

/-- Why a bot cannot start. -/
inductive ConfigError where
  | read (f : DataFile) (e : FileError)
  | parse (f : DataFile)
  | missingToken
  deriving DecidableEq

namespace ConfigError

/-- The wording of an error, given the name of the data directory. -/
def message (root : String) : ConfigError → String
  | .read f e => "Failed to read " ++ root ++ "/" ++ f.path ++ ": " ++ e.message
  | .parse f => "Failed to parse " ++ root ++ "/" ++ f.path
  | .missingToken =>
    "No bot token configured (set `token` in Settings.json or DISCORD_TOKEN)"

end ConfigError

namespace Config

/-- What a decoder makes of a file. -/
def readFile {α : Type} (s : Storage) (f : DataFile) (read? : Source → Option α) :
    Except ConfigError α :=
  match s.readText f with
  | .error e => .error (.read f e)
  | .ok content =>
    match (Source.parse? content).bind read? with
    | some value => .ok value
    | none => .error (.parse f)

/-- The settings with the token of the surroundings where they have none of
their own. -/
def withToken (settings : Settings) (token : Option String) : Settings :=
  if Text.isAllBlank settings.token then { settings with token := token.getD "" } else settings

/-- Reads everything. -/
def load (s : Storage) (token : Option String) : Except ConfigError Config := do
  let settings ← readFile s .settings Settings.read?
  let settings := withToken settings token
  if Text.isAllBlank settings.token then .error .missingToken
  else
    let rules ← if s.occupied .rules then readFile s .rules Source.value? else .ok .null
    let commands ← readFile s .commands Chain.readCommands?
    let events ← readFile s .events Chain.readEvents?
    .ok ⟨settings, rules, commands, events⟩

end Config

end ActionChain
