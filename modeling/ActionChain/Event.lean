import ActionChain.Chain.Subject

/-!
# Platform Events

What a chat platform reports. An event is published on a bus under a name,
where mods listen, and some events also set off the configured chains of
another name. Messages and guilds do not: a message goes through the
commands, and a guild through its initialization.

## Main definitions

* `PlatformEvent`: what happened.
* `PlatformEvent.busName`: the name mods listen under.
* `PlatformEvent.eventName?`: the name of the configured event, if any.
* `PlatformEvent.subject`: what chains operate over.
-/

namespace ActionChain

/-- What a platform reports. -/
inductive PlatformEvent where
  | messageCreated (m : Message)
  | memberJoined (m : Member)
  | memberRemoved (m : Member)
  | memberBanned (m : Member)
  | guildAvailable (g : Guild)
  deriving DecidableEq

namespace EventName

/-- Fired once for every guild. -/
def botInitialization : String := "Bot Initialization"

/-- Fired when a member joins. -/
def userJoinsServer : String := "User Joins Server"

/-- Fired when a member leaves or is removed. -/
def userKicked : String := "User Kicked"

/-- Fired when a user is banned. -/
def userBanned : String := "User Banned"

/-- Fired for every message that no bot wrote. -/
def anyMessage : String := "Any Message"

end EventName

namespace PlatformEvent

/-- The name mods listen under. -/
def busName : PlatformEvent → String
  | .messageCreated _ => "message"
  | .memberJoined _ => "guildMemberAdd"
  | .memberRemoved _ => "guildMemberRemove"
  | .memberBanned _ => "guildBanAdd"
  | .guildAvailable _ => "guildCreate"

/-- The name of the configured event that is fired directly. -/
def eventName? : PlatformEvent → Option String
  | .memberJoined _ => some EventName.userJoinsServer
  | .memberRemoved _ => some EventName.userKicked
  | .memberBanned _ => some EventName.userBanned
  | _ => none

/-- What chains operate over. -/
def subject : PlatformEvent → Subject
  | .messageCreated m => .message m
  | .memberJoined m => .member m
  | .memberRemoved m => .member m
  | .memberBanned m => .ban m
  | .guildAvailable g => .guild g

end PlatformEvent

end ActionChain
