import ActionChain.Numeric.Binary64

/-!
# Decimal Numbers

A number is written by the shortest way: among the decimals that stand for it,
those with the fewest digits, and of these the one nearest to the number's
exact value. A decimal stands for the number nearest to it. Whether a
candidate does is decided by rounding it, so that what is written stands for
the number needs no argument about the search; should the search ever come up
empty, the exact decimal expansion steps in, which stands for the number
because it rounds nothing.

How the digits are laid out is a separate decision with two answers here. A
JSON file moves to an exponent for very small and very large numbers and
always shows that the number is not an integer. A message never shows an
exponent and writes whole numbers without a point. The two also differ in
which of two equally near shortest decimals they take. A `Layout` records
these decisions as data.

## Main definitions

* `Decimal`: digits and a power of ten.
* `Binary64.ofDecimal`: the floating-point number nearest to a decimal.
* `Decimal.shortest`: the shortest decimal that stands for a number.
* `Decimal.Layout`, `Decimal.Layout.file`, `Decimal.Layout.message`: the two
  ways to spell a decimal.
* `Binary64.Finite.spell`, `Binary64.message`: the spelling of a number.

## Theorems

* `Decimal.denotes_of_search`: what the search returns stands for the number.
-/

namespace ActionChain

/-- The magnitude `digits * 10 ^ exponent`. -/
structure Decimal where
  digits : Nat
  exponent : Int
  deriving DecidableEq, Repr

namespace Decimal

/-- How many decimal digits a natural number has. -/
def length (n : Nat) : Nat := (Nat.toDigits 10 n).length

end Decimal

namespace Binary64

/-- The number nearest to a decimal under a sign. A magnitude of `10 ^ 310` or
more overflows and one below `10 ^ -330` rounds to zero whatever its digits
are, so neither is expanded. -/
def ofDecimal (negative : Bool) (d : Decimal) : Binary64 :=
  let point : Int := Decimal.length d.digits + d.exponent
  if d.digits = 0 ∨ point < -330 then .finite (Finite.zero negative)
  else if 310 < point then .infinite negative
  else ofRatio negative (d.digits * Nat.pow 10 d.exponent.toNat * unitsOfOne)
    (Nat.pow 10 (-d.exponent).toNat)

end Binary64

namespace Decimal

open Binary64 (Finite)

/-- Whether a decimal stands for a number, given the number's sign. -/
def denotes (d : Decimal) (x : Finite) : Bool :=
  Binary64.ofDecimal x.negative d = .finite x

/-- Which of two equally near decimals is written. -/
inductive Tie where
  /-- The one whose last digit is even. -/
  | even
  /-- The greater one. -/
  | up
  deriving DecidableEq, Repr

/-- The power of ten just above `n / d`: the least `e` with
`n / d < 10 ^ e`, for a positive ratio. -/
def ceiling (n d : Nat) : Int :=
  if d ≤ n then length (n / d)
  else 1 - (length ((d + n - 1) / n - 1) : Int)

/-- The decimals of `k` digits around `n / d`, where `n / d` lies below
`10 ^ e` and not below `10 ^ (e - 1)`: the greatest that does not exceed it,
the next one up, and how the remainder compares with half a step. -/
def neighbours (n d : Nat) (e : Int) (k : Nat) : Decimal × Decimal × Ordering :=
  let shift : Int := k - e
  let num := n * Nat.pow 10 shift.toNat
  let den := d * Nat.pow 10 (-shift).toNat
  let q := num / den
  -- The neighbour above the last of `k` digits is the power of ten.
  let above : Decimal := if q + 1 = Nat.pow 10 k then ⟨1, e⟩ else ⟨q + 1, -shift⟩
  (⟨q, -shift⟩, above, compare (2 * (num % den)) den)

/-- The decimal of `k` digits nearest to a number among those that stand
for it, if any does. -/
def ofLength? (tie : Tie) (x : Finite) (e : Int) (k : Nat) : Option Decimal :=
  let (below, above, half) := neighbours (Binary64.units x.rank) Binary64.unitsOfOne e k
  match below.denotes x, above.denotes x with
  | false, false => none
  | true, false => some below
  | false, true => some above
  -- Both stand for the number: the nearer one is taken.
  | true, true =>
    match half with
    | .lt => some below
    | .gt => some above
    | .eq =>
      match tie with
      | .even => some (if below.digits % 2 = 0 then below else above)
      | .up => some above

/-- The exact value of a number, in full. -/
def exact (x : Finite) : Decimal := ⟨Binary64.units x.rank * Nat.pow 5 1074, -1074⟩

/-- The shortest decimal for a number that is not zero. Seventeen digits
always suffice for a number of this width. -/
def shortest (tie : Tie) (x : Finite) : Decimal :=
  let e := ceiling (Binary64.units x.rank) Binary64.unitsOfOne
  ((List.range 17).findSome? fun k => ofLength? tie x e (k + 1)).getD (exact x)

theorem denotes_of_ofLength? {tie : Tie} {x : Finite} {e : Int} {k : Nat} {d : Decimal}
    (h : ofLength? tie x e k = some d) : d.denotes x = true := by
  unfold ofLength? at h
  generalize neighbours (Binary64.units x.rank) Binary64.unitsOfOne e k = around at h
  obtain ⟨below, above, half⟩ := around
  dsimp only at h
  cases hbelow : below.denotes x <;> cases habove : above.denotes x <;>
    simp only [hbelow, habove] at h
  · cases h
  · cases h; exact habove
  · cases h; exact hbelow
  · cases half
    · cases h; exact hbelow
    · cases tie
      · simp only [Option.some.injEq] at h
        split at h <;> (subst h; assumption)
      · cases h; exact habove
    · cases h; exact habove

/-- What the search returns stands for the number it was made for. -/
theorem denotes_of_search {tie : Tie} {x : Finite} {e : Int} {d : Decimal} {ks : List Nat}
    (h : (ks.findSome? fun k => ofLength? tie x e (k + 1)) = some d) : d.denotes x = true := by
  obtain ⟨k, -, hk⟩ := List.exists_of_findSome?_eq_some h
  exact denotes_of_ofLength? hk

/-- How a decimal is laid out. -/
structure Layout where
  /-- Which of two equally near shortest decimals is taken. -/
  tie : Tie
  /-- Whether whole numbers show a fraction of zero. -/
  showsFraction : Bool
  /-- The positions of the decimal point, counted from the first digit, that
  are written plainly; all others use an exponent. -/
  plain : Int → Bool

namespace Layout

/-- Files: plain from `1e-5` up to, not including, `1e16`, and never without a
fraction or an exponent. -/
def file : Layout := ⟨.even, true, fun point => -5 < point && point ≤ 16⟩

/-- Messages: always plain, and whole numbers without a point. -/
def message : Layout := ⟨.up, false, fun _ => true⟩

/-- Digits with a point behind the first `point` of them, padded with zeros on
either side where the digits do not reach the point. -/
def spellPlain (layout : Layout) (digits : List Char) (point : Int) : List Char :=
  if point ≤ 0 then '0' :: '.' :: List.replicate (-point).toNat '0' ++ digits
  else if digits.length ≤ point.toNat then
    digits ++ List.replicate (point.toNat - digits.length) '0' ++
      (if layout.showsFraction then ['.', '0'] else [])
  else digits.take point.toNat ++ '.' :: digits.drop point.toNat

/-- One digit, the others behind a point, and a signed exponent. -/
def spellScientific (digits : List Char) (point : Int) : List Char :=
  let power := point - 1
  digits.take 1 ++ (if digits.length = 1 then [] else '.' :: digits.drop 1) ++
    'e' :: (if power < 0 then '-' else '+') :: Nat.toDigits 10 power.natAbs

/-- The characters of a decimal. -/
def spell (layout : Layout) (d : Decimal) : List Char :=
  let digits := Nat.toDigits 10 d.digits
  let point : Int := digits.length + d.exponent
  if layout.plain point then layout.spellPlain digits point else spellScientific digits point

end Layout

end Decimal

namespace Binary64

/-- The characters of a finite number. Zero keeps its sign. -/
def Finite.spell (layout : Decimal.Layout) (x : Finite) : List Char :=
  let sign := if x.negative then ['-'] else []
  if x.rank = 0 then sign ++ layout.spell ⟨0, 0⟩
  else sign ++ layout.spell (Decimal.shortest layout.tie x)

/-- The text of a number in a message. -/
def message : Binary64 → String
  | .finite x => String.ofList (x.spell .message)
  | .infinite negative => if negative then "-inf" else "inf"
  | .nan => "NaN"

end Binary64

end ActionChain
