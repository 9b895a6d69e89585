import ActionChain.Chain.Subject
import ActionChain.Dict
import ActionChain.Json.Decode
import ActionChain.Json.Printer
import ActionChain.Time.Instant

/-!
# User Records

What is remembered of everyone who ever ran a command: the name they had last,
how many commands they ran, when the last one was, and whatever data mods
attach. The records are kept by user id in numeric order, which is also the
order of the file.

In the file a user id is the key of a member, spelled as a decimal number
with no sign, no leading zero and no escape. Such a spelling is unique, so
two members of a file are the same user only if their keys are the same text.

## Main definitions

* `UserRecord`: what is remembered of a user.
* `UserCache`: the records by user id.
* `UserCache.recordCommand`: noting that a user ran a command.
* `UserCache.written`, `UserCache.read?`: to and from JSON.
-/

namespace ActionChain

/-- What is remembered of a user. -/
structure UserRecord where
  name : String
  commandCount : UInt64
  lastCommandAt : Option Instant
  /-- Free-form data, in ascending order of its keys. -/
  data : List (String × Json)

namespace UserRecord

/-- The record of a user nobody has heard of. -/
def blank : UserRecord := ⟨"", 0, none, []⟩

/-- The count one higher, unless it is already the highest there is. -/
def countUp (n : UInt64) : UInt64 := if n = 0xFFFFFFFFFFFFFFFF then n else n + 1

end UserRecord

theorem Number.inRange_of_lt {n : Nat} (h : n < UInt64.size) : Number.InRange (n : Int) := by
  unfold UInt64.size at h
  unfold Number.InRange
  omega

theorem Number.inRange_toNat (n : UInt64) : Number.InRange n.toNat := inRange_of_lt n.toNat_lt_size

namespace Json

/-- An unsigned number of 64 bits. -/
def word (n : UInt64) : Json := .number (.int n.toNat (Number.inRange_of_lt n.toNat_lt_size))

end Json

namespace UserRecord

/-- A record as it is written. -/
def written (r : UserRecord) : Json :=
  .object [("name", .string r.name), ("command_count", .word r.commandCount),
    ("last_command_at", (r.lastCommandAt.map fun t => Json.string t.toText).getD .null),
    ("data", .object r.data)]

/-- An instant read from its text. -/
def readInstant? (source : Source) : Option Instant := source.text?.bind Instant.parse?

/-- A record read from its written form. -/
def read? (source : Source) : Option UserRecord := do
  let field ← source.record? ["name", "command_count", "last_command_at", "data"]
  let name ← Source.required Source.text? (field "name")
  let commandCount ← Source.withDefault 0 Source.word? (field "command_count")
  let lastCommandAt ←
    Source.withDefault none (Source.nullable? readInstant?) (field "last_command_at")
  let data ← Source.withDefault [] Source.members? (field "data")
  pure ⟨name, commandCount, lastCommandAt, data⟩

end UserRecord

/-- The records of all known users. -/
structure UserCache where
  records : Dict UInt64 UserRecord

namespace UserCache

/-- No users. -/
def empty : UserCache := ⟨Dict.empty⟩

instance : Inhabited UserCache := ⟨empty⟩

/-- The record of a user. -/
def get? (c : UserCache) (id : UInt64) : Option UserRecord := c.records.get? id

/-- How many users are known. -/
def size (c : UserCache) : Nat := c.records.size

/-- Notes that a user ran a command, and the name they have now. -/
def recordCommand (c : UserCache) (user : User) (time : Instant) : UserCache :=
  let old := (c.get? user.id).getD .blank
  ⟨c.records.insert user.id
    { old with
      name := user.name
      commandCount := UserRecord.countUp old.commandCount
      lastCommandAt := some time }⟩

/-- Attaches data to a known user. -/
def putData? (c : UserCache) (id : UInt64) (key : String) (value : Json) : Option UserCache :=
  (c.get? id).map fun r =>
    ⟨c.records.insert id { r with data := Entries.insert key value r.data }⟩

/-- The cache as it is written. -/
def written (c : UserCache) : Json :=
  .object (c.records.entries.map fun e => (toString e.1, e.2.written))

/-- The user a key names. -/
def readId? (key : Key) : Option UInt64 := do
  let digits := (← key.text).toList
  if key.escaped || digits.isEmpty || !digits.all Char.isDigit ||
      -- A leading zero would spell the same user twice.
      (digits.head? == some '0' && digits.length != 1) then none
  else
    let n := Text.digitsValue digits
    if n < UInt64.size then some (UInt64.ofNat n) else none

/-- A cache read from its written form. -/
def read? : Source → Option UserCache
  | .object members => do
    let entries ← members.mapM fun (key, source) => do
      let id ← readId? key
      let r ← UserRecord.read? source
      pure (id, r)
    pure ⟨Dict.ofList entries⟩
  | _ => none

end UserCache

end ActionChain
