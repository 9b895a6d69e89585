/-!
# Subjects

What a chain operates over: the message, the member or the guild that set it
off. A subject knows its guild, the channel a reply goes to and the user
behind it, as far as its kind has them; a chain that needs one that is
missing goes on without.

## Main definitions

* `User`, `Message`, `Member`, `Guild`: what a platform reports.
* `Subject`: one of them.
* `Subject.guildId?`, `Subject.channelId?`, `Subject.user?`: what it knows.
* `Subject.describe`: a short description.
-/

namespace ActionChain

/-- A person or a bot. -/
structure User where
  id : UInt64
  name : String
  bot : Bool
  deriving DecidableEq

/-- A chat message. It carries the names of its author's roles; outside a
guild there are none. -/
structure Message where
  guildId : Option UInt64
  channelId : UInt64
  author : User
  content : String
  roles : List String
  deriving DecidableEq

/-- A user in a guild. -/
structure Member where
  guildId : UInt64
  user : User
  deriving DecidableEq

/-- A guild that is available. -/
structure Guild where
  id : UInt64
  name : String
  deriving DecidableEq

/-- What a chain operates over. -/
inductive Subject where
  | message (m : Message)
  | member (m : Member)
  | ban (m : Member)
  | guild (g : Guild)
  deriving DecidableEq

namespace Subject

/-- The guild it happened in. -/
def guildId? : Subject → Option UInt64
  | .message m => m.guildId
  | .member m => some m.guildId
  | .ban m => some m.guildId
  | .guild g => some g.id

/-- The channel a reply goes to when an action names none. -/
def channelId? : Subject → Option UInt64
  | .message m => some m.channelId
  | _ => none

/-- The user behind it. -/
def user? : Subject → Option User
  | .message m => some m.author
  | .member m => some m.user
  | .ban m => some m.user
  | .guild _ => none

/-- A short description. -/
def describe : Subject → String
  | .message m => "message [" ++ m.content ++ "]"
  | .member m => "member " ++ toString m.user.id ++ " in guild " ++ toString m.guildId
  | .ban m => "ban of " ++ toString m.user.id ++ " in guild " ++ toString m.guildId
  | .guild g => "guild " ++ g.name ++ " (" ++ toString g.id ++ ")"

end Subject

end ActionChain
