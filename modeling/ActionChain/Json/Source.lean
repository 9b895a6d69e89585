import ActionChain.Json.Basic
import ActionChain.Numeric.Literal
import ActionChain.Text.Utf8

/-!
# Reading JSON

Reading has two stages, because two kinds of fault have different reach. A
fault of grammar spoils the whole text wherever it stands. A fault of meaning
— half of a surrogate pair, a number beyond the floating-point range, a value
nested too deeply, an octet that is no character — matters only when somebody
asks for the value that has it; an unknown member of a record may have any of
them and is still skipped.

So the grammar produces a `Source`, which keeps duplicate members in the
order of the text and marks faults of meaning as `unreadable`, and whoever
wants a value asks the source for it. `Source.value?` asks for everything at
once.

Arrays and objects may be nested 127 deep. What lies deeper obeys the grammar
like everything else and counts as unreadable.

The scanners walk over a list of symbols and hand back what is left. The
mutual group for values takes fuel; every call consumes a symbol or hands
over to one that does, so twice the length of the text is always enough and
`Source.parse?` shows no fuel.

## Main definitions

* `Source`: the grammatical structure of a text.
* `Source.parse?`: the source of a text, nothing left over.
* `Source.value?`: the JSON value of a source.
* `Source.ofJson`: a value as a source, to read a value already in memory.
* `Json.parse?`: the JSON value of a text.

## Theorems

* `Source.value?_ofJson`: a value read from its own source is itself.
* `Source.ordered_of_value?`: a value that was read is ordered.
-/

namespace ActionChain

/-- A key in an object, with what its spelling may have cost it: no text if it
cannot be read, and a note whether escapes were used. -/
structure Key where
  text : Option String
  escaped : Bool
  deriving DecidableEq

/-- The grammatical structure of a JSON text. -/
inductive Source where
  | null
  | bool (b : Bool)
  | number (n : Number)
  | string (s : String)
  | array (items : List Source)
  | object (members : List (Key × Source))
  /-- Grammatical, but without a value. -/
  | unreadable

/-! ## Texts -/

/-- A piece of a quoted text. -/
inductive Piece where
  | char (c : Char)
  /-- A character written as a backslash and a letter. -/
  | escape (c : Char)
  /-- A UTF-16 unit written as four hexadecimal digits. -/
  | unit (u : Nat)
  /-- An octet that belongs to no character. -/
  | stray
  deriving DecidableEq

namespace Piece

/-- Whether a piece is spelled with a backslash. -/
def isEscape : Piece → Bool
  | .escape _ => true
  | .unit _ => true
  | _ => false

/-- Whether a unit is the first half of a pair. -/
def isLead (u : Nat) : Bool := 0xD800 ≤ u && u < 0xDC00

/-- Whether a unit is the second half of a pair. -/
def isTrail (u : Nat) : Bool := 0xDC00 ≤ u && u < 0xE000

/-- The characters that pieces spell. Halves of a pair must come in order and
next to each other. -/
def chars? : List Piece → Option (List Char)
  | [] => some []
  | .char c :: rest => (chars? rest).map (c :: ·)
  | .escape c :: rest => (chars? rest).map (c :: ·)
  | .stray :: _ => none
  | .unit u :: .unit v :: rest =>
    if isLead u then
      -- Two halves in order spell one character beyond the units.
      if isTrail v then
        (chars? rest).map (Char.ofNat (0x10000 + (u - 0xD800) * 0x400 + (v - 0xDC00)) :: ·)
      else none
    else if isTrail u then none
    else (chars? (.unit v :: rest)).map (Char.ofNat u :: ·)
  | .unit u :: rest =>
    if isLead u || isTrail u then none else (chars? rest).map (Char.ofNat u :: ·)

end Piece

namespace Scan

/-- Whether a symbol may stand between tokens. -/
def isBlank : Symbol → Bool
  | some c => c == ' ' || c == '\n' || c == '\r' || c == '\t'
  | none => false

/-- What follows the blanks at the front. -/
def skipBlanks (symbols : List Symbol) : List Symbol := symbols.dropWhile isBlank

/-- What follows a word at the front. -/
def expect? : List Char → List Symbol → Option (List Symbol)
  | [], symbols => some symbols
  | c :: word, some d :: rest => if c = d then expect? word rest else none
  | _ :: _, _ => none

/-- The value of a hexadecimal digit. -/
def hexValue? (c : Char) : Option Nat :=
  if '0' ≤ c ∧ c ≤ '9' then some (c.toNat - '0'.toNat)
  else if 'a' ≤ c ∧ c ≤ 'f' then some (c.toNat - 'a'.toNat + 10)
  else if 'A' ≤ c ∧ c ≤ 'F' then some (c.toNat - 'A'.toNat + 10)
  else none

/-- The value of four hexadecimal digits. -/
def hexUnit? (a b c d : Char) : Option Nat := do
  let a ← hexValue? a
  let b ← hexValue? b
  let c ← hexValue? c
  let d ← hexValue? d
  pure (((a * 16 + b) * 16 + c) * 16 + d)

/-- The character that a backslash and a letter stand for. -/
def escapeValue? (c : Char) : Option Char :=
  if c = '"' then some '"'
  else if c = '\\' then some '\\'
  else if c = '/' then some '/'
  else if c = 'b' then some '\x08'
  else if c = 'f' then some '\x0c'
  else if c = 'n' then some '\n'
  else if c = 'r' then some '\r'
  else if c = 't' then some '\t'
  else none

/-- The pieces of a text up to its closing quote, and what follows the quote.
A character below U+0020 may not stand in a text. -/
def text? : List Symbol → Option (List Piece × List Symbol)
  | [] => none
  | some '\\' :: some 'u' :: some a :: some b :: some c :: some d :: rest => do
    let u ← hexUnit? a b c d
    let (pieces, rest) ← text? rest
    pure (.unit u :: pieces, rest)
  | some '\\' :: some c :: rest => do
    let value ← escapeValue? c
    let (pieces, rest) ← text? rest
    pure (.escape value :: pieces, rest)
  | some '\\' :: _ => none
  | some '"' :: rest => some ([], rest)
  | some c :: rest => do
    if c.toNat < 0x20 then none
    else
      let (pieces, rest) ← text? rest
      pure (.char c :: pieces, rest)
  | none :: rest => do
    let (pieces, rest) ← text? rest
    pure (.stray :: pieces, rest)

/-! ## Numbers -/

/-- The decimal digits at the front, and what follows them. -/
def digits : List Symbol → List Char × List Symbol
  | some c :: rest =>
    if c.isDigit then
      let (more, rest) := digits rest
      (c :: more, rest)
    else ([], some c :: rest)
  | symbols => ([], symbols)

/-- The digits of a fraction, none when no point stands here. A point needs a
digit behind it. -/
def fraction? : List Symbol → Option (List Char × List Symbol)
  | some '.' :: rest =>
    match digits rest with
    | ([], _) => none
    | found => some found
  | symbols => some ([], symbols)

/-- The exponent, `none` inside when none stands here. The mark needs a digit
behind it, with or without a sign between. -/
def exponent? : List Symbol → Option (Option Int × List Symbol)
  | some c :: rest =>
    if c = 'e' ∨ c = 'E' then
      let (negative, rest) := match rest with
        | some '-' :: rest => (true, rest)
        | some '+' :: rest => (false, rest)
        | rest => (false, rest)
      match digits rest with
      | ([], _) => none
      | (ds, rest) =>
        let value : Int := Text.digitsValue ds
        some (some (if negative then -value else value), rest)
    else some (none, some c :: rest)
  | symbols => some (none, symbols)

/-- The number of a literal. An integer that fits 64 bits stays one; the
literal `-0` and everything with a point or an exponent is a floating-point
number; a literal beyond the finite range has no number. -/
def literal? (negative : Bool) (whole fraction : List Char) (exponent : Option Int) :
    Option Number :=
  let magnitude := Text.digitsValue whole
  let asFloat := match Binary64.ofLiteral negative whole fraction (exponent.getD 0) with
    | .finite x => some (.float x)
    | _ => none
  if fraction.isEmpty && exponent.isNone && !(negative && magnitude == 0) then
    let i : Int := if negative then -(magnitude : Int) else magnitude
    -- An integer too great for 64 bits is read like a float.
    if h : Number.InRange i then some (.int i h) else asFloat
  else asFloat

/-- The number at the front behind its sign; the inner `none` marks one
without a value. A zero starts no longer whole part. -/
def number? (negative : Bool) (symbols : List Symbol) : Option (Option Number × List Symbol) := do
  let (whole, rest) := digits symbols
  if whole.isEmpty || (whole.head? == some '0' && whole.length != 1) then none
  else
    let (fraction, rest) ← fraction? rest
    let (exponent, rest) ← exponent? rest
    pure (literal? negative whole fraction exponent, rest)

/-! ## Values -/

/-- The key that pieces spell. -/
def key (pieces : List Piece) : Key :=
  ⟨(Piece.chars? pieces).map String.ofList, pieces.any Piece.isEscape⟩

/-- A text as a source. -/
def textSource (pieces : List Piece) : Source :=
  match Piece.chars? pieces with
  | some cs => .string (String.ofList cs)
  | none => .unreadable

/-- A number as a source. -/
def numberSource : Option Number → Source
  | some n => .number n
  | none => .unreadable

/-- An array or object found where `depth` more may be opened. -/
def nested (depth : Nat) (s : Source) : Source := if depth = 0 then .unreadable else s

mutual

/-- The value at the front, where `depth` more arrays and objects may be
opened. -/
def value? (fuel depth : Nat) (symbols : List Symbol) : Option (Source × List Symbol) :=
  match fuel with
  | 0 => none
  | fuel + 1 =>
    match skipBlanks symbols with
    | some '[' :: rest =>
      match skipBlanks rest with
      | some ']' :: rest => some (nested depth (.array []), rest)
      -- What is nested too deep has no value, but has to be grammatical all the same.
      | rest => do
        let (items, rest) ← items? fuel (depth - 1) rest
        pure (nested depth (.array items), rest)
    | some '\x7b' :: rest =>
      match skipBlanks rest with
      | some '\x7d' :: rest => some (nested depth (.object []), rest)
      | rest => do
        let (members, rest) ← members? fuel (depth - 1) rest
        pure (nested depth (.object members), rest)
    | some '"' :: rest => do
      let (pieces, rest) ← text? rest
      pure (textSource pieces, rest)
    | some 'n' :: rest => do
      let rest ← expect? ['u', 'l', 'l'] rest
      pure (.null, rest)
    | some 't' :: rest => do
      let rest ← expect? ['r', 'u', 'e'] rest
      pure (.bool true, rest)
    | some 'f' :: rest => do
      let rest ← expect? ['a', 'l', 's', 'e'] rest
      pure (.bool false, rest)
    | some '-' :: rest => do
      let (n, rest) ← number? true rest
      pure (numberSource n, rest)
    | rest => do
      let (n, rest) ← number? false rest
      pure (numberSource n, rest)

/-- One or more items up to the closing bracket, and what follows it. -/
def items? (fuel depth : Nat) (symbols : List Symbol) : Option (List Source × List Symbol) :=
  match fuel with
  | 0 => none
  | fuel + 1 => do
    let (item, rest) ← value? fuel depth symbols
    match skipBlanks rest with
    | some ',' :: rest =>
      let (items, rest) ← items? fuel depth rest
      pure (item :: items, rest)
    | some ']' :: rest => pure ([item], rest)
    | _ => none

/-- One or more members up to the closing brace, and what follows it. -/
def members? (fuel depth : Nat) (symbols : List Symbol) :
    Option (List (Key × Source) × List Symbol) :=
  match fuel with
  | 0 => none
  | fuel + 1 =>
    match skipBlanks symbols with
    | some '"' :: rest => do
      let (pieces, rest) ← text? rest
      match skipBlanks rest with
      | some ':' :: rest =>
        let (value, rest) ← value? fuel depth rest
        match skipBlanks rest with
        | some ',' :: rest =>
          let (members, rest) ← members? fuel depth rest
          pure ((key pieces, value) :: members, rest)
        | some '\x7d' :: rest => pure ([(key pieces, value)], rest)
        | _ => none
      | _ => none
    | _ => none

end

end Scan

namespace Source

/-- How deep arrays and objects may be nested. -/
def maxDepth : Nat := 127

/-- The source of a text whose values may be nested `depth` deep. Nothing but
blanks may follow the value. -/
def parseWithin? (depth : Nat) (symbols : List Symbol) : Option Source := do
  -- A symbol nests two calls at most: a list of values, and a value in it.
  let (source, rest) ← Scan.value? (2 * symbols.length + 2) depth symbols
  if (Scan.skipBlanks rest).isEmpty then some source else none

/-- The source of a text. -/
def parse? (symbols : List Symbol) : Option Source := parseWithin? maxDepth symbols

mutual

/-- The JSON value of a source, if everything in it is readable. The last of
several members under one key counts. -/
def value? : Source → Option Json
  | .null => some .null
  | .bool b => some (.bool b)
  | .number n => some (.number n)
  | .string s => some (.string s)
  | .array items => (values? items).map .array
  | .object members => (memberValues? members).map fun ms => .object (Entries.ofList ms)
  | .unreadable => none

/-- The values of all items. -/
def values? : List Source → Option (List Json)
  | [] => some []
  | item :: rest => do
    let value ← value? item
    let values ← values? rest
    pure (value :: values)

/-- The keys and values of all members. -/
def memberValues? : List (Key × Source) → Option (List (String × Json))
  | [] => some []
  | (key, source) :: rest => do
    let text ← key.text
    let value ← value? source
    let values ← memberValues? rest
    pure ((text, value) :: values)

end

mutual

/-- A value in memory as a source. -/
def ofJson : Json → Source
  | .null => .null
  | .bool b => .bool b
  | .number n => .number n
  | .string s => .string s
  | .array items => .array (ofItems items)
  | .object members => .object (ofMembers members)

/-- `ofJson` on every item. -/
def ofItems : List Json → List Source
  | [] => []
  | item :: rest => ofJson item :: ofItems rest

/-- `ofJson` on the value of every member. -/
def ofMembers : List (String × Json) → List (Key × Source)
  | [] => []
  | (key, value) :: rest => (⟨some key, false⟩, ofJson value) :: ofMembers rest

end

end Source

namespace Json

/-- The JSON value of a sequence of symbols. -/
def parse? (symbols : List Symbol) : Option Json := (Source.parse? symbols).bind Source.value?

end Json

namespace Source

mutual

/-- An ordered value read from its own source is itself. -/
theorem value?_ofJson : ∀ j : Json, j.Ordered → value? (ofJson j) = some j
  | .null, _ => by simp [ofJson, value?]
  | .bool _, _ => by simp [ofJson, value?]
  | .number _, _ => by simp [ofJson, value?]
  | .string _, _ => by simp [ofJson, value?]
  | .array items, h => by
    simp only [Json.Ordered] at h
    simp [ofJson, value?, values?_ofItems items h]
  | .object members, h => by
    simp only [Json.Ordered] at h
    simp [ofJson, value?, memberValues?_ofMembers members h.2, Entries.ofList_of_ascending h.1]

theorem values?_ofItems : ∀ items : List Json, Json.OrderedItems items →
    values? (ofItems items) = some items
  | [], _ => by simp [ofItems, values?]
  | item :: rest, h => by
    simp only [Json.OrderedItems] at h
    simp [ofItems, values?, value?_ofJson item h.1, values?_ofItems rest h.2]

theorem memberValues?_ofMembers : ∀ members : List (String × Json), Json.OrderedMembers members →
    memberValues? (ofMembers members) = some members
  | [], _ => by simp [ofMembers, memberValues?]
  | (key, value) :: rest, h => by
    simp only [Json.OrderedMembers] at h
    simp [ofMembers, memberValues?, value?_ofJson value h.1, memberValues?_ofMembers rest h.2]

end

mutual

/-- A value that was read is ordered. -/
theorem ordered_of_value? : ∀ {s : Source} {j : Json}, s.value? = some j → j.Ordered
  | .null, _, h => by cases h; trivial
  | .bool _, _, h => by cases h; trivial
  | .number _, _, h => by cases h; trivial
  | .string _, _, h => by cases h; trivial
  | .array items, j, h => by
    simp only [value?, Option.map_eq_some_iff] at h
    obtain ⟨values, hvalues, rfl⟩ := h
    exact ordered_of_values? hvalues
  | .object members, j, h => by
    simp only [value?, Option.map_eq_some_iff] at h
    obtain ⟨values, hvalues, rfl⟩ := h
    refine ⟨Entries.ascending_ofList values, Json.orderedMembers_iff.2 fun e he => ?_⟩
    have hmembers := ordered_of_memberValues? hvalues
    exact Json.orderedMembers_iff.1 hmembers e (Entries.mem_of_mem_ofList he)

theorem ordered_of_values? : ∀ {items : List Source} {values : List Json},
    values? items = some values → Json.OrderedItems values
  | [], _, h => by cases h; trivial
  | item :: rest, values, h => by
    simp only [values?, Option.bind_eq_bind, Option.bind_eq_some_iff] at h
    obtain ⟨value, hvalue, others, hothers, hvalues⟩ := h
    cases hvalues
    exact ⟨ordered_of_value? hvalue, ordered_of_values? hothers⟩

theorem ordered_of_memberValues? : ∀ {members : List (Key × Source)}
    {values : List (String × Json)}, memberValues? members = some values → Json.OrderedMembers values
  | [], _, h => by cases h; trivial
  | (key, source) :: rest, values, h => by
    simp only [memberValues?, Option.bind_eq_bind, Option.bind_eq_some_iff] at h
    obtain ⟨text, htext, value, hvalue, others, hothers, hvalues⟩ := h
    cases hvalues
    exact ⟨ordered_of_value? hvalue, ordered_of_memberValues? hothers⟩

end

end Source

end ActionChain
