import ActionChain.Json.Source

/-!
# Decoding Records

How the parts of a file become values of the domain. A decoder is a partial
function on sources; failing carries no reason, because a file that does not
decode is reported as a whole.

A record may be spelled as an object or as an array of its fields in
declared order. As an object, its known members may each occur once, members
under other keys are skipped without being looked at, and every key must be
readable. As an array, it may leave out fields at the end and may not have
more items than fields. Either way a decoder then sees, per field, what
stands there or that nothing does, and decides whether that is a default or a
failure (`required`, `withDefault`).

A choice between names is spelled as a text, or as an object with a single
member whose key is the name; a name without payload may carry a `null`
there.

## Main definitions

* `Source.record?`: the fields of a record.
* `required`, `withDefault`: what a missing field means.
* `Source.text?`, `Source.natural?`, `Source.float?` and their like: scalars.
* `Source.list?`, `Source.table?`: items and members of one kind.
* `Source.choice?`: a name with an optional payload.
-/

namespace ActionChain.Source

/-- The keys and sources of members, if every key is readable. -/
def readableKeys? : List (Key × Source) → Option (List (String × Source))
  | [] => some []
  | (key, source) :: rest => do
    let text ← key.text
    let rest ← readableKeys? rest
    pure ((text, source) :: rest)

/-- The fields of a record by name. -/
abbrev Fields := String → Option Source

/-- The fields of a record with these names. -/
def record? (names : List String) : Source → Option Fields
  | .object members => do
    let members ← readableKeys? members
    if names.all fun name => members.countP (·.1 == name) ≤ 1 then
      some fun name => Entries.find? name members
    else none
  | .array items =>
    if items.length ≤ names.length then some fun name => Entries.find? name (names.zip items)
    else none
  | _ => none

/-- A field that must be there. -/
def required {α : Type} (read : Source → Option α) (field : Option Source) : Option α :=
  field.bind read

/-- A field that may be missing. -/
def withDefault {α : Type} (default : α) (read : Source → Option α) : Option Source → Option α
  | none => some default
  | some source => read source

/-- Nothing for `null`, and otherwise what a decoder reads. -/
def nullable? {α : Type} (read : Source → Option α) : Source → Option (Option α)
  | .null => some none
  | source => (read source).map some

/-- A truth value. -/
def bool? : Source → Option Bool
  | .bool b => some b
  | _ => none

/-- A text. -/
def text? : Source → Option String
  | .string s => some s
  | _ => none

/-- A natural number below a bound. -/
def natural? (bound : Nat) : Source → Option Nat
  | .number (.int i _) => if 0 ≤ i ∧ i < bound then some i.toNat else none
  | _ => none

/-- An unsigned number of 64 bits. -/
def word? (source : Source) : Option UInt64 := (source.natural? UInt64.size).map UInt64.ofNat

/-- A floating-point number; an integer becomes the nearest one. -/
def float? : Source → Option Binary64
  | .number n => some n.toBinary64
  | _ => none

/-- The items of an array, each read by a decoder. -/
def list? {α : Type} (read : Source → Option α) : Source → Option (List α)
  | .array items => items.mapM read
  | _ => none

/-- The members of an object, each value read by a decoder. The last of
several members under one key counts, but all must be readable. -/
def table? {α : Type} (read : Source → Option α) : Source → Option (Dict String α)
  | .object members => do
    let members ← readableKeys? members
    let entries ← members.mapM fun (key, source) => (read source).map (key, ·)
    pure (Dict.ofList entries)
  | _ => none

/-- The members of an object of free-form values. -/
def members? (source : Source) : Option (List (String × Json)) :=
  match source.value? with
  | some (.object members) => some members
  | _ => none

/-- A name with the payload that follows it. -/
def choice? : Source → Option (String × Option Source)
  | .string s => some (s, none)
  | .object [(key, payload)] => key.text.map (·, some payload)
  | _ => none

/-- A name without payload. -/
def bareName? (source : Source) : Option String :=
  match source.choice? with
  | some (name, none) => some name
  | some (name, some .null) => some name
  | _ => none

end ActionChain.Source
