import ActionChain.Numeric.Binary64
import ActionChain.Text.Digits

/-!
# Decimal Literals

How the number of a literal is computed. The digits are gathered in a word of
64 bits; the word becomes the nearest floating-point number, and that is
multiplied or divided by the nearest number to a power of ten. Every one of
these steps rounds. A literal of few digits and a small exponent suffers no
rounding but the last and gets the number nearest to it. With seventeen
digits two roundings can add up, and then the neighbour of the nearest number
is read: `9007199254740991.0` reads as `9007199254740990`.

Digits that do not fit the word are dropped. The whole part and the fraction
are gathered one after the other, and each stops at the first digit that does
not fit.

The powers of ten reach as far as the floating-point numbers do. Beyond them
a number other than zero overflows, or is divided more than once.

## Main definitions

* `Literal.gather`: a word with as many digits behind it as fit.
* `Literal.scale`: a number times a power of ten.
* `Binary64.ofLiteral`: the number of a literal.
-/

namespace ActionChain

namespace Literal

open Binary64 (Finite)

/-- The size of the word that digits are gathered in. -/
def capacity : Nat := UInt64.size

/-- A word with digits written behind it up to the first that does not fit, and
how many digits are left. -/
def gather (n : Nat) : List Char → Nat × Nat
  | [] => (n, 0)
  | c :: rest =>
    if Text.pushDigit n c < capacity then gather (Text.pushDigit n c) rest
    else (n, rest.length + 1)

/-- The greatest power of ten among the floating-point numbers. -/
def maxPower : Nat := 308

/-- The nearest number to a power of ten, in units of `2 ^ -1074`. -/
def power (k : Nat) : Nat := Binary64.units (Binary64.nearestRank (Nat.pow 10 k * Binary64.unitsOfOne) 1)

/-- A number times the nearest number to a power of ten, rounded. -/
def multiply (x : Finite) (k : Nat) : Binary64 :=
  .ofRatio x.negative (Binary64.units x.rank * power k) Binary64.unitsOfOne

/-- A number divided by the nearest number to a power of ten, rounded. -/
def divide (x : Finite) (k : Nat) : Binary64 :=
  .ofRatio x.negative (Binary64.units x.rank * Binary64.unitsOfOne) (power k)

/-- A number times a power of ten. -/
def raise (x : Finite) (k : Nat) : Binary64 :=
  if k ≤ maxPower then multiply x k
  else if x.rank = 0 then .finite x
  else .infinite x.negative

/-- A number divided by the greatest power of ten several times. Zero stays
zero, however often it is divided. -/
def divideAgain (x : Finite) : (turns : Nat) → Binary64
  | 0 => .finite x
  | turns + 1 =>
    if x.rank = 0 then .finite x
    else
      match divide x maxPower with
      | .finite y => divideAgain y turns
      | other => other

/-- A number divided by a power of ten: by the greatest as long as the power
exceeds it, and then by what remains of it. -/
def lower (x : Finite) (k : Nat) : Binary64 :=
  let turns := (k - 1) / maxPower
  match divideAgain x turns with
  | .finite y => divide y (k - maxPower * turns)
  | other => other

/-- A number scaled by a power of ten of either sign. -/
def scale (x : Finite) (exponent : Int) : Binary64 :=
  if 0 ≤ exponent then raise x exponent.toNat else lower x (-exponent).toNat

end Literal

namespace Binary64

/-- The number of a literal, given its sign, the digits before and behind the
point and its exponent. -/
def ofLiteral (negative : Bool) (whole fraction : List Char) (exponent : Int) : Binary64 :=
  let (word, skipped) := Literal.gather 0 whole
  let (word, dropped) := Literal.gather word fraction
  match ofRatio negative (word * unitsOfOne) 1 with
  -- A digit dropped from the whole part leaves its place behind, unlike one of the fraction.
  | .finite x => Literal.scale x (exponent + skipped - (fraction.length - dropped : Nat))
  | other => other

end Binary64

end ActionChain
