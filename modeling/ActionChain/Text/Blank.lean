/-!
# Blank Characters

What people type is trimmed of every character with the Unicode property
`White_Space`, which is wider than the four blanks of JSON and wider than the
character class of the core library: a no-break space or an ideographic space
at the end of a message goes too. The set has not changed since Unicode 6.3,
so it is a table here and nothing more.

## Main definitions

* `Text.isBlank`: membership in `White_Space`.
* `Text.trim`: a text without the blanks at either end.
-/

namespace ActionChain.Text

/-- The code points with the property `White_Space`, as inclusive ranges. -/
def blankRanges : List (Nat × Nat) :=
  [(0x9, 0xD), (0x20, 0x20), (0x85, 0x85), (0xA0, 0xA0), (0x1680, 0x1680), (0x2000, 0x200A),
   (0x2028, 0x2029), (0x202F, 0x202F), (0x205F, 0x205F), (0x3000, 0x3000)]

/-- Whether a character counts as blank. -/
def isBlank (c : Char) : Bool :=
  blankRanges.any fun range => range.1 ≤ c.toNat && c.toNat ≤ range.2

/-- The characters without the blank ones at either end. -/
def trimBlanks (cs : List Char) : List Char :=
  ((cs.dropWhile isBlank).reverse.dropWhile isBlank).reverse

/-- A text without the blanks at either end. Blanks inside it stay. -/
def trim (s : String) : String :=
  String.ofList (trimBlanks s.toList)

/-- Whether nothing but blanks stands in a text. -/
def isAllBlank (s : String) : Bool := s.toList.all isBlank

end ActionChain.Text
