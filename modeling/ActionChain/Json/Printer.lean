import ActionChain.Json.Basic
import ActionChain.Numeric.Decimal

/-!
# Writing JSON

Two layouts of one grammar. The compact one has no blanks and is what a
message shows of a structured variable. The pretty one puts every item and
member on a line of its own, two more spaces in for every level, and is what
the files hold. In both, an empty array or object is a bare pair of brackets,
and members appear in the order the value lists them.

Only what JSON forces is escaped in a text: the quote, the backslash and the
characters below U+0020. Everything else stands for itself.

## Main definitions

* `Json.escape`: the characters between the quotes of a text.
* `Json.compact`, `Json.pretty`: the two layouts, as characters.
* `Json.toText`, `Json.toPrettyText`: the same as texts.
-/

namespace ActionChain

/-- The hexadecimal digit of a number below 16, in lower case. -/
def hexDigit (n : Nat) : Char := Nat.digitChar n

namespace Number

/-- The characters of a number. An integer never shows a point. -/
def spell : Number → List Char
  | .int i _ => (if i < 0 then ['-'] else []) ++ Nat.toDigits 10 i.natAbs
  | .float x => x.spell .file

end Number

namespace Json

/-- How a character stands inside a quoted text. -/
def escapeChar (c : Char) : List Char :=
  if c = '"' then ['\\', '"']
  else if c = '\\' then ['\\', '\\']
  else if c = '\n' then ['\\', 'n']
  else if c = '\r' then ['\\', 'r']
  else if c = '\t' then ['\\', 't']
  else if c = '\x08' then ['\\', 'b']
  else if c = '\x0c' then ['\\', 'f']
  else if c.toNat < 0x20 then ['\\', 'u', '0', '0', hexDigit (c.toNat / 16), hexDigit (c.toNat % 16)]
  else [c]

/-- The characters between the quotes of a text. -/
def escape (cs : List Char) : List Char := cs.flatMap escapeChar

/-- A quoted text. -/
def quote (s : String) : List Char := '"' :: escape s.toList ++ ['"']

/-- The characters of a truth value. -/
def spellBool (b : Bool) : List Char :=
  if b then ['t', 'r', 'u', 'e'] else ['f', 'a', 'l', 's', 'e']

mutual

/-- The value without blanks. -/
def compact : Json → List Char
  | .null => ['n', 'u', 'l', 'l']
  | .bool b => spellBool b
  | .number n => n.spell
  | .string s => quote s
  | .array items => '[' :: compactItems items ++ [']']
  | .object members => '\x7b' :: compactMembers members ++ ['\x7d']

/-- Items between commas. -/
def compactItems : List Json → List Char
  | [] => []
  | [item] => compact item
  | item :: rest => compact item ++ ',' :: compactItems rest

/-- Members between commas. -/
def compactMembers : List (String × Json) → List Char
  | [] => []
  | [(key, value)] => quote key ++ ':' :: compact value
  | (key, value) :: rest => quote key ++ ':' :: compact value ++ ',' :: compactMembers rest

end

/-- A line break followed by the indentation of a level. -/
def newLine (level : Nat) : List Char := '\n' :: List.replicate (2 * level) ' '

mutual

/-- The value with every item and member on a line of its own, at a level of
indentation. -/
def pretty (level : Nat) : Json → List Char
  | .null => ['n', 'u', 'l', 'l']
  | .bool b => spellBool b
  | .number n => n.spell
  | .string s => quote s
  | .array [] => ['[', ']']
  | .array items => '[' :: prettyItems (level + 1) items ++ newLine level ++ [']']
  | .object [] => ['\x7b', '\x7d']
  | .object members => '\x7b' :: prettyMembers (level + 1) members ++ newLine level ++ ['\x7d']

/-- Items, each on a line of its own. -/
def prettyItems (level : Nat) : List Json → List Char
  | [] => []
  | [item] => newLine level ++ pretty level item
  | item :: rest => newLine level ++ pretty level item ++ ',' :: prettyItems level rest

/-- Members, each on a line of its own. -/
def prettyMembers (level : Nat) : List (String × Json) → List Char
  | [] => []
  | [(key, value)] => newLine level ++ quote key ++ ':' :: ' ' :: pretty level value
  | (key, value) :: rest =>
    newLine level ++ quote key ++ ':' :: ' ' :: pretty level value ++ ',' :: prettyMembers level rest

end

/-- The compact text of a value. -/
def toText (j : Json) : String := String.ofList j.compact

/-- The text of a value as it stands in a file. -/
def toPrettyText (j : Json) : String := String.ofList (j.pretty 0)

end Json

end ActionChain
