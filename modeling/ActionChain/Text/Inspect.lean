import ActionChain.Text.UnprintableTable

/-!
# Showing Texts for Inspection

An error that quotes a text shows it so that nothing in it can be mistaken:
between quotes, with the quote and the backslash escaped, line breaks, tabs
and the zero character by their letters, and every other character that does
not stand on its own as its code point in hexadecimal.

## Main definitions

* `Text.inspect`: a text shown for inspection.
-/

namespace ActionChain.Text

/-- Whether a character is written as its code point. -/
def isUnprintable (c : Char) : Bool :=
  unprintableRanges.any fun range => range.1 ≤ c.toNat && c.toNat ≤ range.2

/-- How a character is shown. -/
def inspectChar (c : Char) : List Char :=
  if c = '"' then ['\\', '"']
  else if c = '\\' then ['\\', '\\']
  else if c = '\n' then ['\\', 'n']
  else if c = '\r' then ['\\', 'r']
  else if c = '\t' then ['\\', 't']
  else if c.toNat = 0 then ['\\', '0']
  else if isUnprintable c then '\\' :: 'u' :: '\x7b' :: Nat.toDigits 16 c.toNat ++ ['\x7d']
  else [c]

/-- A text shown for inspection. -/
def inspect (s : String) : String :=
  String.ofList ('"' :: s.toList.flatMap inspectChar ++ ['"'])

end ActionChain.Text
