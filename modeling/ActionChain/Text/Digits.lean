/-!
# Decimal Digits

The numbers that runs of decimal digits stand for.

## Main definitions

* `Text.pushDigit`, `Text.appendDigits`: a number with digits written behind it.
* `Text.digitsValue`: the number that digits spell.
-/

namespace ActionChain.Text

/-- A number with one more digit. -/
def pushDigit (n : Nat) (c : Char) : Nat := n * 10 + (c.toNat - '0'.toNat)

/-- A number with digits written behind it. -/
def appendDigits (n : Nat) (cs : List Char) : Nat := cs.foldl pushDigit n

/-- The number that digits spell. -/
def digitsValue (cs : List Char) : Nat := appendDigits 0 cs

theorem appendDigits_cons (n : Nat) (c : Char) (cs : List Char) :
    appendDigits n (c :: cs) = appendDigits (pushDigit n c) cs :=
  List.foldl_cons ..

end ActionChain.Text
