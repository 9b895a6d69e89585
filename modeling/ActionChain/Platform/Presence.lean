import ActionChain.Dict
import ActionChain.Guild.Loaded

/-!
# Presence on a Platform

What is known of the guilds a bot is in. The platform announces guilds that
may still be unavailable, delivers the details of each when it becomes
available, and keeps reporting changes; the cache follows. Which guilds were
ever announced is remembered separately, because a guild that dropped out of
the cache still has to be waited for.

The guild directory is made from both: a guild is listed if it is cached,
known to be unavailable or announced, and it is available exactly when it is
cached. An id is listed once, in ascending order, and zero is no id.

## Main definitions

* `CachedGuild`, `Cache`: what the platform delivered.
* `Cache.roleNames`: the names of a message author's roles.
* `Presence`: the cache and the announced guilds.
* `Presence.directory`: the guild directory.
-/

namespace ActionChain

/-- The details of a guild. -/
structure CachedGuild where
  name : String
  /-- The names of the roles by id. -/
  roles : Dict UInt64 String
  /-- The role ids of the members by user id. -/
  members : Dict UInt64 (List UInt64)

/-- What the platform delivered. -/
structure Cache where
  guilds : Dict UInt64 CachedGuild
  /-- The guilds known to be unavailable. -/
  unavailable : Dict UInt64 Unit

namespace Cache

/-- Nothing was delivered yet. -/
def empty : Cache := ⟨Dict.empty, Dict.empty⟩

/-- A guild becomes available with its details. -/
def arrive (c : Cache) (id : UInt64) (g : CachedGuild) : Cache :=
  ⟨c.guilds.insert id g, c.unavailable.erase id⟩

/-- A guild is announced, or becomes unavailable. -/
def withdraw (c : Cache) (id : UInt64) : Cache :=
  ⟨c.guilds.erase id, c.unavailable.insert id ()⟩

/-- A guild is left for good. -/
def forget (c : Cache) (id : UInt64) : Cache := { c with guilds := c.guilds.erase id }

/-- A change to a cached guild; a guild that is not cached has nothing to
change. -/
def adjust (c : Cache) (id : UInt64) (f : CachedGuild → CachedGuild) : Cache :=
  match c.guilds.get? id with
  | some g => { c with guilds := c.guilds.insert id (f g) }
  | none => c

/-- A member's roles are recorded. -/
def setMember (c : Cache) (guild user : UInt64) (roles : List UInt64) : Cache :=
  c.adjust guild fun g => { g with members := g.members.insert user roles }

/-- A member is gone. -/
def removeMember (c : Cache) (guild user : UInt64) : Cache :=
  c.adjust guild fun g => { g with members := g.members.erase user }

/-- The names of a message author's roles: those the message carries, or else
those of the cached member, as far as the guild knows a name for them. Outside
a cached guild there are none. -/
def roleNames (c : Cache) (guild : Option UInt64) (author : UInt64)
    (carried : Option (List UInt64)) : List String :=
  match guild.bind c.guilds.get? with
  | none => []
  | some g =>
    let ids := carried.getD ((g.members.get? author).getD [])
    ids.filterMap g.roles.get?

end Cache

/-- The cache, and every guild that was announced. -/
structure Presence where
  cache : Cache
  announced : Dict UInt64 Unit

namespace Presence

/-- Nothing is known yet. -/
def empty : Presence := ⟨.empty, Dict.empty⟩

/-- How a guild is listed. -/
def status (p : Presence) (id : UInt64) : GuildStatus :=
  match p.cache.guilds.get? id with
  | some g => ⟨id, g.name, true⟩
  | none => ⟨id, "", false⟩

/-- Every id that is cached, unavailable or announced, once and in ascending
order. -/
def ids (p : Presence) : List UInt64 :=
  let known := p.cache.guilds.keys ++ p.cache.unavailable.keys ++ p.announced.keys
  (Dict.ofList ((known.filter (· ≠ 0)).map (·, ()))).keys

/-- The guild directory. -/
def directory (p : Presence) : List GuildStatus := p.ids.map p.status

/-- Whether a guild was announced before. -/
def isAnnounced (p : Presence) (id : UInt64) : Bool := (p.announced.get? id).isSome

/-- Remembers that a guild was announced. -/
def announce (p : Presence) (id : UInt64) : Presence :=
  { p with announced := p.announced.insert id () }

end Presence

end ActionChain
