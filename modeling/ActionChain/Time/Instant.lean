import ActionChain.Text.Blank
import ActionChain.Text.Digits
import ActionChain.Time.Date

/-!
# Instants

A point in universal time, to the nanosecond, as the user records keep it.

Reading is generous: blanks may stand before a number or a separator, the
separator between date and time may be a blank, more than nine digits of a
fraction are dropped, and any offset below a day is accepted and applied.
Writing has one form. The fraction is left out when it is zero and otherwise
takes three, six or nine digits, the fewest that hold it.

A leap second is kept as the second before it with a nanosecond count of a
thousand million or more, and written as second 60. It can only follow the
last second of a minute, which the type records.

## Main definitions

* `Instant`: a point in universal time.
* `Instant.make?`: the instant of a date, a second of the day and nanoseconds.
* `Instant.spell`, `Instant.toText`: the written form.
* `Instant.parse?`: the instant a text names.

## Theorems

* `Instant.make?_fields`: an instant is made from its own numbers.
-/

namespace ActionChain

namespace Instant

/-- Whether numbers name a moment of a day. Nanoseconds from a thousand
million on stand for a leap second and need the last second of a minute. -/
def Valid (second nanosecond : Nat) : Prop :=
  second < 86400 ∧ nanosecond < 2000000000 ∧ (1000000000 ≤ nanosecond → second % 60 = 59)

instance (second nanosecond : Nat) : Decidable (Valid second nanosecond) :=
  inferInstanceAs (Decidable (_ ∧ _))

theorem valid_midnight : Valid 0 0 := by decide

end Instant

/-- A point in universal time. -/
structure Instant where
  date : Date
  /-- The second of the day. -/
  second : Nat
  nanosecond : Nat
  valid : Instant.Valid second nanosecond
  deriving DecidableEq

namespace Instant

/-- The instant that numbers name. -/
def make? (date : Date) (second nanosecond : Nat) : Option Instant :=
  if h : Valid second nanosecond then some ⟨date, second, nanosecond, h⟩ else none

@[simp] theorem make?_fields (t : Instant) : make? t.date t.second t.nanosecond = some t := by
  simp [make?, t.valid]

/-! ## Writing -/

/-- A number padded with zeros to a width. -/
def padded (width n : Nat) : List Char :=
  let digits := Nat.toDigits 10 n
  List.replicate (width - digits.length) '0' ++ digits

/-- A year: four digits from 0 to 9999, and signed outside. -/
def spellYear (year : Int) : List Char :=
  if 0 ≤ year ∧ year ≤ 9999 then padded 4 year.toNat
  else (if year < 0 then '-' else '+') :: padded 4 year.natAbs

/-- A fraction of a second, given in nanoseconds. -/
def spellFraction (nanosecond : Nat) : List Char :=
  if nanosecond = 0 then []
  else if nanosecond % 1000000 = 0 then '.' :: padded 3 (nanosecond / 1000000)
  else if nanosecond % 1000 = 0 then '.' :: padded 6 (nanosecond / 1000)
  else '.' :: padded 9 nanosecond

/-- The characters of an instant. -/
def spell (t : Instant) : List Char :=
  let leap := t.nanosecond / 1000000000
  spellYear t.date.year ++ '-' :: padded 2 t.date.month ++ '-' :: padded 2 t.date.day ++
    'T' :: padded 2 (t.second / 3600) ++ ':' :: padded 2 (t.second / 60 % 60) ++
    ':' :: padded 2 (t.second % 60 + leap) ++ spellFraction (t.nanosecond % 1000000000) ++ ['Z']

/-- The text of an instant. -/
def toText (t : Instant) : String := String.ofList t.spell

/-! ## Reading -/

/-- What follows the blanks at the front. -/
def skipBlanks (cs : List Char) : List Char := cs.dropWhile Text.isBlank

/-- What follows a character, which blanks may precede. -/
def expect? (c : Char) (cs : List Char) : Option (List Char) :=
  match skipBlanks cs with
  | d :: rest => if c = d then some rest else none
  | [] => none

/-- Up to `width` decimal digits at the front, and what follows them. -/
def takeDigits : (width : Nat) → List Char → List Char × List Char
  | width + 1, c :: rest =>
    if c.isDigit then
      let (more, rest) := takeDigits width rest
      (c :: more, rest)
    else ([], c :: rest)
  | _, cs => ([], cs)

/-- A number of one to `width` digits at the front. -/
def number? (width : Nat) (cs : List Char) : Option (Nat × List Char) :=
  match takeDigits width cs with
  | ([], _) => none
  | (digits, rest) => some (Text.digitsValue digits, rest)

/-- A year: any number of digits behind a sign, and up to four without one. -/
def year? (cs : List Char) : Option (Int × List Char) :=
  match skipBlanks cs with
  | '-' :: rest => (number? rest.length rest).map fun (n, rest) => (-(n : Int), rest)
  | '+' :: rest => (number? rest.length rest).map fun (n, rest) => ((n : Int), rest)
  | cs => (number? 4 cs).map fun (n, rest) => ((n : Int), rest)

/-- A number of one or two digits, which blanks may precede. -/
def short? (cs : List Char) : Option (Nat × List Char) := number? 2 (skipBlanks cs)

/-- The nanoseconds of a fraction, zero when no point stands here. Nine digits
count and the rest of them are passed over. -/
def fraction? : List Char → Option (Nat × List Char)
  | '.' :: rest =>
    match takeDigits 9 rest with
    | ([], _) => none
    | (digits, rest) =>
      some (Text.digitsValue digits * Nat.pow 10 (9 - digits.length), rest.dropWhile Char.isDigit)
  | cs => some (0, cs)

/-- An offset from universal time in seconds: the letter Z, the letters UTC in
either case, or a sign with two digits of hours and two of minutes, between
which colons and blanks may stand. -/
def offset? (cs : List Char) : Option (Int × List Char) :=
  match cs with
  | 'Z' :: rest => some (0, rest)
  | 'z' :: rest => some (0, rest)
  | u :: t :: c :: rest =>
    if u.toUpper = 'U' ∧ t.toUpper = 'T' ∧ c.toUpper = 'C' then some (0, rest)
    else signed? (u :: t :: c :: rest)
  | cs => signed? cs
where
  /-- An offset behind a sign. -/
  signed? : List Char → Option (Int × List Char)
    | sign :: h₁ :: h₂ :: rest =>
      match rest.dropWhile fun c => c = ':' || Text.isBlank c with
      | m₁ :: m₂ :: rest =>
        if (sign = '+' ∨ sign = '-' ∨ sign = '\u2212') ∧ h₁.isDigit ∧ h₂.isDigit ∧ m₁.isDigit ∧
            m₂.isDigit ∧ m₁ < '6' then
          let size : Int := Text.digitsValue [h₁, h₂] * 3600 + Text.digitsValue [m₁, m₂] * 60
          if size < 86400 then some (if sign = '+' then size else -size, rest) else none
        else none
      | _ => none
    | _ => none

/-- The instant at a local date and second of the day, under an offset. -/
def fromLocal? (date : Date) (second nanosecond : Nat) (offset : Int) : Option Instant :=
  let shifted := (second : Int) - offset
  -- An offset is shorter than a day, so the date moves by one at most.
  if shifted < 0 then do
    let date ← date.previous?
    make? date (shifted + 86400).toNat nanosecond
  else if 86400 ≤ shifted then do
    let date ← date.next?
    make? date (shifted - 86400).toNat nanosecond
  else make? date shifted.toNat nanosecond

/-- The instant that characters name. -/
def read? (cs : List Char) : Option Instant := do
  let (year, cs) ← year? cs
  let cs ← expect? '-' cs
  let (month, cs) ← short? cs
  let cs ← expect? '-' cs
  let (day, cs) ← short? cs
  let cs ← match cs with
    | c :: rest => if c = 'T' ∨ c = 't' ∨ c = ' ' then some rest else none
    | [] => none
  let (hour, cs) ← short? cs
  let cs ← expect? ':' cs
  let (minute, cs) ← short? cs
  let cs ← expect? ':' cs
  let (second, cs) ← short? cs
  let (nanosecond, cs) ← fraction? cs
  let (offset, cs) ← offset? (skipBlanks cs)
  let date ← Date.make? year month day
  if 23 < hour ∨ 59 < minute ∨ 60 < second ∨ !(skipBlanks cs).isEmpty then none
  else
    -- Second 60 is second 59 with a nanosecond count past its end.
    let leap := second / 60
    fromLocal? date (hour * 3600 + minute * 60 + (second - leap)) (nanosecond + leap * 1000000000)
      offset

/-- The instant that a text names. -/
def parse? (s : String) : Option Instant := read? s.toList

end Instant

end ActionChain
