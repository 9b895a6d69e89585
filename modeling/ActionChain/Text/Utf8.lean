/-!
# UTF-8

Files and the control channel arrive as octets. They are read into symbols:
a character, or a mark for an octet that belongs to no character. Keeping the
mark, instead of failing at once, matters because a reader may skip over a
text it does not need, and a stray octet in a skipped text is no fault; it
becomes one as soon as somebody asks for the text itself.

An octet that cannot start a character, or starts one that the following
octets do not complete, is marked alone and reading goes on behind it, so a
line feed is never swallowed by a broken character before it.

## Main definitions

* `Symbol`: a character, or a stray octet.
* `Utf8.decode`: the symbols of a sequence of octets.
* `Symbols.text?`: the text, when every symbol is a character.
-/

namespace ActionChain

/-- A character, or `none` for an octet that belongs to no character. -/
abbrev Symbol := Option Char

namespace Utf8

/-- Whether an octet continues a character. -/
def isTail (b : UInt8) : Bool := 0x80 ≤ b && b ≤ 0xBF

/-- The payload of a continuing octet. -/
def tailBits (b : UInt8) : Nat := b.toNat % 0x40

/-- The character with a code point, when the octets that spell it are in
order, with the octets behind it. -/
def accept (inOrder : Bool) (code : Nat) (rest : List UInt8) : Option (Char × List UInt8) :=
  if inOrder then some (Char.ofNat code, rest) else none

/-- The character that starts a sequence of octets, with the octets behind it.
The shortest form is the only one accepted, and the surrogates and everything
above U+10FFFF are no characters. -/
def first? : List UInt8 → Option (Char × List UInt8)
  | [] => none
  | a :: rest =>
    if a < 0x80 then accept true a.toNat rest
    else if 0xC2 ≤ a && a ≤ 0xDF then
      match rest with
      | b :: rest => accept (isTail b) (a.toNat % 0x20 * 0x40 + tailBits b) rest
      | _ => none
    else if 0xE0 ≤ a && a ≤ 0xEF then
      match rest with
      | b :: c :: rest =>
        let code := (a.toNat % 0x10 * 0x40 + tailBits b) * 0x40 + tailBits c
        accept (isTail b && isTail c && 0x800 ≤ code && (code < 0xD800 || 0xE000 ≤ code)) code rest
      | _ => none
    else if 0xF0 ≤ a && a ≤ 0xF4 then
      match rest with
      | b :: c :: d :: rest =>
        let code := ((a.toNat % 8 * 0x40 + tailBits b) * 0x40 + tailBits c) * 0x40 + tailBits d
        accept (isTail b && isTail c && isTail d && 0x10000 ≤ code && code ≤ 0x10FFFF) code rest
      | _ => none
    else none

theorem rest_of_accept {inOrder : Bool} {code : Nat} {rest rest' : List UInt8} {c : Char}
    (h : accept inOrder code rest = some (c, rest')) : rest' = rest := by
  unfold accept at h
  split at h
  · exact (Prod.mk.inj (Option.some.inj h)).2.symm
  · cases h

theorem length_first?_lt {bs rest : List UInt8} {c : Char} (h : first? bs = some (c, rest)) :
    rest.length < bs.length := by
  unfold first? at h
  grind [rest_of_accept]

/-- The symbols of a sequence of octets. -/
def decode (bs : List UInt8) : List Symbol :=
  match bs with
  | [] => []
  | b :: bs =>
    match h : first? (b :: bs) with
    | some (c, rest) =>
      have : rest.length < (b :: bs).length := length_first?_lt h
      some c :: decode rest
    | none => none :: decode bs
termination_by bs.length
decreasing_by
  · exact this
  · exact Nat.lt_succ_self bs.length

end Utf8

namespace Symbols

/-- The symbols of a text. -/
def ofString (s : String) : List Symbol := s.toList.map some

/-- The characters, when every symbol is one. -/
def chars? : List Symbol → Option (List Char)
  | [] => some []
  | none :: _ => none
  | some c :: rest => (chars? rest).map (c :: ·)

/-- The text, when every symbol is a character. -/
def text? (symbols : List Symbol) : Option String :=
  (chars? symbols).map String.ofList

@[simp] theorem chars?_map_some (cs : List Char) : chars? (cs.map some) = some cs := by
  induction cs with
  | nil => rfl
  | cons c cs ih => simp [chars?, ih]

end Symbols

end ActionChain
