import ActionChain.Dispatch.Command
import ActionChain.Guild.Hub
import ActionChain.Platform.Presence

/-!
# The Platform Adapter

How a bot follows the platform it is connected to. Every signal first changes
the cache and is then handled: messages go through the listeners and the
commands, member signals are events, and signals about guilds may call for an
initialization pass.

A pass is called for when the platform announces its guilds, and when a guild
arrives that was never announced and is not initialized. A guild that was
announced needs no call of its own, because a pass has been waiting for it
since.

Handlers and passes take turns on one clock. A signal's handler goes first;
the passes it called for begin when it is done, and then everyone goes on as
far as possible while the clock stands still.

## Main definitions

* `Signal`: what a platform sends.
* `Signal.change`: what a signal does to the cache.
* `Signal.announce`: announcing guilds, cut by cut.
* `Signal.handle`: its handler, which tells whether a pass is called for.
* `Connection`: a bot on a platform, with the passes under way.
* `Connection.receive?`, `Connection.tick?`: a signal, and time passing.
-/

namespace ActionChain

variable {β : Type} [Conduct β]

/-- A message as the platform sends it. -/
structure RawMessage where
  guildId : Option UInt64
  channelId : UInt64
  author : User
  content : String
  /-- The ids of the author's roles, if the message carries them. -/
  memberRoles : Option (List UInt64)

/-- What a platform sends. -/
inductive Signal where
  /-- The bot is connected; these guilds are announced. -/
  | ready (ids : List UInt64)
  | guildCreate (id : UInt64) (g : CachedGuild)
  | guildDelete (id : UInt64) (unavailable : Bool)
  | memberAdd (m : Member) (roles : List UInt64)
  | memberRemove (m : Member)
  | ban (m : Member)
  | message (m : RawMessage)

/-- A bot on a platform. -/
abbrev Station (β : Type) := Hub β Presence

namespace Station

/-- Changes what is known of the guilds. -/
def adapt (f : Presence → Presence) (s : Station β) : Station β :=
  { s with surroundings := f s.surroundings }

/-- A routine of the bot. -/
def lift {α : Type} (r : Routine (Bot β) α) : Routine (Station β) α := Hub.desk.lift r

/-- An attempt of a pass over the guild directory. -/
def attempt : Nat → Routine (Station β) (Nat ⊕ InitReport) :=
  Pass.attempt Hub.desk (Routine.read fun s => s.surroundings.directory)

end Station

namespace RawMessage

/-- The message with the names of the author's roles. -/
def resolve (m : RawMessage) (c : Cache) : Message where
  guildId := m.guildId
  channelId := m.channelId
  author := m.author
  content := m.content
  roles := c.roleNames m.guildId m.author.id m.memberRoles

end RawMessage

namespace Signal

/-- What a signal does to the cache. -/
def change (c : Cache) : Signal → Cache
  | .ready ids => ids.foldl Cache.withdraw c
  | .guildCreate id g => c.arrive id g
  | .guildDelete id unavailable => if unavailable then c.withdraw id else c.forget id
  | .memberAdd m roles => c.setMember m.guildId m.user.id roles
  | .memberRemove m => c.removeMember m.guildId m.user.id
  | .ban _ => c
  | .message _ => c

/-- An event that calls for nothing. -/
def publish (e : PlatformEvent) : Routine (Station β) Bool := do
  let _ ← Station.lift (Dispatch.event e)
  pure false

/-- Announces guilds one by one. Others may get a turn between two of them. -/
def announce : List UInt64 → Routine (Station β) Unit
  | [] => pure ()
  | id :: rest => do
    Routine.modify (Station.adapt (·.announce id))
    announce rest

/-- The handler of a signal at a time of the clock. It tells whether a pass is
called for. -/
def handle (now : Instant) : Signal → Routine (Station β) Bool
  | .ready ids => do
    announce ids
    pure true
  | .guildCreate id g => do
    -- Whether the guild is new is asked before it counts as announced.
    let isNew ← Routine.atomic fun s : Station β =>
      (s.adapt (·.announce id), !s.surroundings.isAnnounced id)
    let _ ← publish (.guildAvailable ⟨id, g.name⟩)
    let loaded ← Routine.read fun s : Station β => decide (id ∈ s.bot.loadedGuilds)
    pure (isNew && !loaded)
  | .guildDelete _ _ => pure false
  | .memberAdd m _ => publish (.memberJoined m)
  | .memberRemove m => publish (.memberRemoved m)
  | .ban m => publish (.memberBanned m)
  | .message m => do
    let m ← Routine.read fun s : Station β => m.resolve s.surroundings.cache
    let _ ← publish (.messageCreated m)
    let _ ← Station.lift (Dispatch.message m now)
    pure false

end Signal

/-- Who takes turns on a station. -/
inductive Actor (β : Type) where
  /-- The handler of a signal. -/
  | handler (r : Routine (Station β) Bool)
  /-- A call for a pass. -/
  | caller (c : Caller (Station β))

namespace Actor

/-- The next step of an actor. Only a handler can call for a pass. -/
def step : Actor β → Station β → Station β × Move (Actor β) Bool
  | .handler r, s =>
    match r.step s with
    | (s, .next r) => (s, .next (.handler r))
    | (s, .pause ms r) => (s, .pause ms (.handler r))
    | (s, .finish called) => (s, .finish called)
  | .caller c, s =>
    match c.step Hub.post s with
    | (s, .next c) => (s, .next (.caller c))
    | (s, .pause ms c) => (s, .pause ms (.caller c))
    | (s, .finish _) => (s, .finish false)

end Actor

/-- A bot on a platform, with the passes under way. -/
abbrev Connection (β : Type) := Pool (Station β) (Actor β) Bool

namespace Connection

/-- A connection on which nothing has happened yet. -/
def start (bot : Bot β) : Connection β := ⟨⟨bot, .clear, .empty⟩, 0, []⟩

/-- The result of the first actor, when it is over. -/
def firstResult? (c : Connection β) : Option Bool := c.tasks.head?.bind Task.result?

/-- Lets a routine run before the passes under way until it is done, then
begins the pass it called for, if it did, and settles. -/
def perform? (fuel : Nat) (r : Routine (Station β) Bool) (c : Connection β) :
    Option (Connection β) := do
  let c : Connection β := { c with tasks := .waiting c.clock (.handler r) :: c.tasks }
  -- The handler is the first task, so the run stops when its result is there.
  let c ← c.runUntil? Actor.step (fun c => (firstResult? c).isSome) fuel
  let called := (firstResult? c).getD false
  let calls := if called then [.waiting c.clock (.caller (.start Station.attempt))] else []
  let c : Connection β := { c with tasks := c.tasks ++ calls }
  let c : Connection β := c.settle Actor.step fuel
  pure { c with tasks := c.tasks.filter fun t => t.result?.isNone }

/-- Receives a signal: the cache changes and the handler runs. -/
def receive? (fuel : Nat) (now : Instant) (signal : Signal) (c : Connection β) :
    Option (Connection β) :=
  let state := c.state.adapt fun p => { p with cache := signal.change p.cache }
  perform? fuel (signal.handle now) { c with state }

/-- Lets time pass. -/
def tick? (fuel ms : Nat) (c : Connection β) : Option (Connection β) :=
  perform? fuel (do Routine.pause ms; pure false) c

end Connection

/-- Why the platform refuses a channel that cannot exist. -/
def channelRefusal (channel : UInt64) : Option String :=
  if channel = 0 then some "channel id 0 is not valid" else none

end ActionChain
