import ActionChain.Text.Utf8
import ActionChain.Users
import ActionChain.Variables.File
import ActionChain.Variables.Scope

/-!
# Storage

The data directory of a bot: seven files in four folders. At the place of a
file there may be nothing, a file or, by mistake, a folder; at the place of a
folder there may be a plain file, and then nothing can be read or written
inside.

Loading never fails. A file that is missing, cannot be read or does not
decode stands for an empty user cache or an empty scope, and the other files
are not affected. Writing can fail, file by file: something stands in the way
of the folder or of the file, the system refuses to make it, or the device
gives out in the middle of the text, which leaves a file that is cut short. The
two scope files are both attempted whatever happens to the first, and their
failures are combined into one error.

## Main definitions

* `DataFile`: the files of the data directory.
* `Mishap`: how a write can fail although nothing stands in its way.
* `Storage`: what stands at the place of each.
* `Storage.read`, `Storage.write`: access to a file.
* `Storage.loadUsers`, `Storage.loadScope`: loading, which never fails.
* `Storage.flushUsers`, `Storage.flushVariables`: writing.
* `StoreError.combine`: several failures as one.

## Theorems

* `Storage.place_write`: a write changes its own file only.
-/

namespace ActionChain

/-- Why a file could not be accessed. -/
inductive FileError where
  | notFound
  | alreadyExists
  | notAFolder
  | isAFolder
  | notText
  | other (reason : String)
  deriving DecidableEq

namespace FileError

/-- The wording of an error. -/
def message : FileError → String
  | .notFound => "No such file or directory (os error 2)"
  | .alreadyExists => "File exists (os error 17)"
  | .notAFolder => "Not a directory (os error 20)"
  | .isAFolder => "Is a directory (os error 21)"
  | .notText => "stream did not contain valid UTF-8"
  | .other reason => reason

end FileError

/-- Why state was not written. -/
inductive StoreError where
  | io (e : FileError)
  | serialization (reason : String)
  /-- More than one write failed. -/
  | several (failed : Nat) (first : StoreError)
  deriving DecidableEq

namespace StoreError

/-- The wording of an error. -/
def message : StoreError → String
  | .io e => "IO error: " ++ e.message
  | .serialization reason => "Serialization error: " ++ reason
  | .several failed first => toString failed ++ " writes failed, first: " ++ first.message

/-- Several failures as one: none, the only one, or how many and the first. -/
def combine : List StoreError → Option StoreError
  | [] => none
  | [e] => some e
  | first :: rest => some (.several (rest.length + 1) first)

end StoreError

/-- A folder of the data directory. -/
inductive Folder where
  | settings
  | commands
  | user
  | scopes
  deriving DecidableEq

/-- A file of the data directory. -/
inductive DataFile where
  | settings
  | rules
  | commands
  | events
  | users
  | scope (s : Scope)
  deriving DecidableEq

namespace DataFile

/-- The folder a file is in. -/
def folder : DataFile → Folder
  | .settings => .settings
  | .rules => .settings
  | .commands => .commands
  | .events => .commands
  | .users => .user
  | .scope _ => .scopes

/-- The path of a file below the data directory. -/
def path : DataFile → String
  | .settings => "Settings/Settings.json"
  | .rules => "Settings/Rules.json"
  | .commands => "commands/commands.json"
  | .events => "commands/events.json"
  | .users => "user/user.json"
  | .scope .server => "variables/servervars.json"
  | .scope .global => "variables/globalvars.json"

end DataFile

/-- What stands at the place of a file. -/
inductive Place where
  | absent
  | file (content : List Symbol)
  | folder
  deriving DecidableEq

/-- How a write can fail although nothing stands in its way. -/
inductive Mishap where
  /-- The folder or the file is not made. What stood at its place stays. -/
  | refused (e : FileError)
  /-- The device gives out after some characters, which are left in the file. -/
  | brokenOff (kept : Nat) (reason : String)
  deriving DecidableEq

/-- The data directory. -/
structure Storage where
  place : DataFile → Place
  /-- Whether a plain file stands in the place of a folder. -/
  blocked : Folder → Bool
  /-- What happens to a write of a file, if anything does. -/
  mishap : DataFile → Option Mishap := fun _ => none

namespace Storage

/-- A data directory without files. -/
def empty : Storage where
  place _ := .absent
  blocked _ := false

instance : Inhabited Storage := ⟨empty⟩

/-- The data directory with the place of a file replaced. -/
def put (s : Storage) (f : DataFile) (p : Place) : Storage :=
  { s with place := fun f' => if f' = f then p else s.place f' }

/-- Whether something stands at the place of a file. -/
def occupied (s : Storage) (f : DataFile) : Bool :=
  !s.blocked f.folder && s.place f != .absent

/-- The content of a file. -/
def read (s : Storage) (f : DataFile) : Except FileError (List Symbol) :=
  if s.blocked f.folder then .error .notAFolder
  else
    match s.place f with
    | .absent => .error .notFound
    | .folder => .error .isAFolder
    | .file content => .ok content

/-- The content of a file that has to be text throughout. -/
def readText (s : Storage) (f : DataFile) : Except FileError (List Symbol) := do
  let content ← s.read f
  if (Symbols.text? content).isSome then .ok content else .error .notText

/-- Makes a file with its folder and replaces what it holds, or tells why it
cannot be made. -/
def write (s : Storage) (f : DataFile) (text : String) : Except FileError Storage :=
  if s.blocked f.folder then .error .alreadyExists
  else if s.place f = .folder then .error .isAFolder
  else
    match s.mishap f with
    | some (.refused e) => .error e
    | _ => .ok (s.put f (.file (Symbols.ofString text)))

/-- A file that is made holds its text, and no other place changes. -/
theorem eq_put_of_write {s s' : Storage} {f : DataFile} {text : String}
    (h : s.write f text = .ok s') :
    s.blocked f.folder = false ∧ s' = s.put f (.file (Symbols.ofString text)) := by
  unfold write at h
  split at h
  · cases h
  · rename_i hblocked
    split at h
    · cases h
    · split at h
      · cases h
      · cases h
        exact ⟨Bool.eq_false_iff.2 hblocked, rfl⟩

theorem place_write {s s' : Storage} {f : DataFile} {text : String}
    (h : s.write f text = .ok s') (f' : DataFile) :
    s'.place f' = if f' = f then .file (Symbols.ofString text) else s.place f' := by
  rw [(eq_put_of_write h).2]
  rfl

/-! ## Loading -/

/-- What a decoder makes of a file, if the file can be read and decodes. -/
def decode? {α : Type} (s : Storage) (f : DataFile) (read? : Source → Option α) : Option α :=
  match s.read f with
  | .ok content => (Source.parse? content).bind read?
  | .error _ => none

/-- The user cache of the user file, empty unless the file decodes. -/
def loadUsers (s : Storage) : UserCache := (s.decode? .users UserCache.read?).getD .empty

/-- The graph of a scope's file, if the file decodes and its references stay
inside. -/
def scope? (s : Storage) (scope : Scope) : Option Graph := do
  let p ← s.decode? (.scope scope) Persisted.read?
  (Graph.decode p).toOption

/-- The graph of a scope's file, empty unless the file decodes. -/
def loadScope (s : Storage) (scope : Scope) : Graph := (s.scope? scope).getD .empty

/-- Both scopes, each from its own file. -/
def loadVariables (s : Storage) : Variables := ⟨s.loadScope .server, s.loadScope .global⟩

/-! ## Writing -/

/-- The data directory after an attempt to write, and the failure if there was
one. -/
def attempt (s : Storage) (f : DataFile) (text : String) : Storage × Option StoreError :=
  match s.write f text with
  | .error e => (s, some (.io e))
  | .ok s' =>
    match s.mishap f with
    | some (.brokenOff kept reason) =>
      -- The file was emptied as it was made, so the text it held before is gone.
      (s.put f (.file ((Symbols.ofString text).take kept)), some (.serialization reason))
    | _ => (s', none)

/-- Writes the user cache. -/
def flushUsers (s : Storage) (cache : UserCache) : Storage × Option StoreError :=
  s.attempt .users cache.written.toPrettyText

/-- Writes both scopes, the server's first. -/
def flushVariables (s : Storage) (vars : Variables) : Storage × Option StoreError :=
  let (s, server) := s.attempt (.scope .server) vars.server.fileText
  let (s, global) := s.attempt (.scope .global) vars.global.fileText
  (s, StoreError.combine (server.toList ++ global.toList))

end Storage

end ActionChain
