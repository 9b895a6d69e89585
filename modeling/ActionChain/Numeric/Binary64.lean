/-!
# Binary Floating Point

Numeric variables are 64-bit binary floating-point numbers. They are modelled
exactly rather than through the machine's own type, because everything said
about them later — which decimals stand for a number, that integers up to
`2 ^ 53` add without loss — is a statement about exact values, and the
machine type offers no equations.

A finite magnitude is named by its *rank*: its position among all magnitudes
in ascending order. Rank and value rise together, so rounding, comparing and
telling the next number up are all arithmetic on natural numbers. The value
of a rank is counted in units of `2 ^ -1074`, the least positive magnitude:
below `2 ^ 52` rank and units agree, and above it every further `2 ^ 52`
ranks double the spacing. Rank `ranks`, one past the largest finite
magnitude, is where rounding overflows to infinity.

The sign is separate, so zero comes in two signs. They differ as data — both
the JSON text and the text in a message keep the sign — and agree as numbers.

## Main definitions

* `Binary64.binade`, `Binary64.unitsOfOne`: the two constants of the format.
* `Binary64.Finite`: a finite number, as a sign and a rank.
* `Binary64`: a finite number, an infinity, or not a number.
* `Binary64.units`: the magnitude of a rank in units of `2 ^ -1074`.
* `Binary64.nearestRank`: the rank nearest to a ratio, ties to the even one.
* `Binary64.ofRatio`, `Binary64.ofInt`, `Binary64.add`: correctly rounded.
* `Binary64.Finite.sameValue`: equality of numbers, which ignores the sign of
  zero.

## Theorems

* `Binary64.roundEven_mul`: rounding an exact multiple loses nothing.
* `Binary64.nearestRank_of_lt`: a count of units below `2 ^ 53` is its own rank.
-/

namespace ActionChain

namespace Binary64

/-- How many magnitudes share a spacing: `2 ^ 52`. -/
def binade : Nat := Nat.pow 2 52

/-- How many units make one: `2 ^ 1074`. -/
def unitsOfOne : Nat := Nat.pow 2 1074

/-- How many finite magnitudes there are: 2047 binades. -/
def ranks : Nat := 2047 * binade

theorem ranks_pred_lt : ranks - 1 < ranks := by decide

/-- A finite number. -/
structure Finite where
  negative : Bool
  rank : Nat
  rank_lt : rank < ranks
  deriving DecidableEq

/-- The magnitude of a rank, in units of `2 ^ -1074`. -/
def units (rank : Nat) : Nat :=
  if rank < binade then rank
  else (binade + rank % binade) * Nat.pow 2 (rank / binade - 1)

/-- The integer nearest to `n / d`, a tie going to the even neighbour. -/
def roundEven (n d : Nat) : Nat :=
  let q := n / d
  let r := n % d
  if 2 * r < d then q else if d < 2 * r then q + 1 else q + q % 2

/-- The rank nearest to a magnitude of `n / d` units, a tie going to the even
rank. The spacing is chosen by the size of the integer part. When rounding
carries a full significand into the next spacing, the sum carries with it. -/
def nearestRank (n d : Nat) : Nat :=
  let shift := (n / d).log2 - 52
  shift * binade + roundEven n (d * Nat.pow 2 shift)

namespace Finite

/-- The zero of a sign. -/
def zero (negative : Bool) : Finite := ⟨negative, 0, by decide⟩

/-- The signed value in units of `2 ^ -1074`. -/
def scaled (x : Finite) : Int :=
  if x.negative then -(units x.rank : Int) else units x.rank

/-- Whether two numbers have the same value. The two zeros do. -/
def sameValue (x y : Finite) : Bool :=
  x.rank == y.rank && (x.rank == 0 || x.negative == y.negative)

instance : Inhabited Finite := ⟨zero false⟩

end Finite

end Binary64

/-- A 64-bit binary floating-point number. -/
inductive Binary64 where
  | finite (x : Binary64.Finite)
  | infinite (negative : Bool)
  | nan
  deriving DecidableEq

namespace Binary64

/-- The number nearest to a magnitude of `n / d` units under a sign. -/
def ofRatio (negative : Bool) (n d : Nat) : Binary64 :=
  if h : nearestRank n d < ranks then .finite ⟨negative, nearestRank n d, h⟩ else .infinite negative

/-- The number nearest to an integer. -/
def ofInt (i : Int) : Binary64 :=
  ofRatio (i < 0) (i.natAbs * unitsOfOne) 1

/-- Zero. -/
def zero : Binary64 := .finite (Finite.zero false)

/-- One. -/
def one : Binary64 := ofInt 1

instance : Inhabited Binary64 := ⟨zero⟩

/-- The sum, correctly rounded. A sum of zero is negative only when both
terms are negative zeros. -/
def add : Binary64 → Binary64 → Binary64
  | .finite x, .finite y =>
    let sum := x.scaled + y.scaled
    if sum = 0 then .finite (Finite.zero (x.negative && y.negative))
    else ofRatio (sum < 0) sum.natAbs 1
  | .finite _, .infinite s => .infinite s
  | .infinite s, .finite _ => .infinite s
  | .infinite s, .infinite t => if s = t then .infinite s else .nan
  | .nan, _ => .nan
  | _, .nan => .nan

instance : Add Binary64 := ⟨add⟩

/-- Rounding an exact multiple loses nothing. -/
theorem roundEven_mul (q : Nat) {d : Nat} (hd : 0 < d) : roundEven (q * d) d = q := by
  simp [roundEven, Nat.mul_div_cancel _ hd, hd]

/-- A magnitude below `2 ^ 53` units is its own rank. -/
theorem nearestRank_of_lt {n : Nat} (h : n < 2 * binade) : nearestRank n 1 = n := by
  have hlog : n.log2 - 52 = 0 := by
    rcases Nat.eq_zero_or_pos n with rfl | hpos
    · decide
    · have hpow : 2 * binade = Nat.pow 2 53 := by decide
      have hlog : n.log2 < 53 := (Nat.log2_lt (Nat.pos_iff_ne_zero.1 hpos)).2 (Nat.lt_of_lt_of_eq h hpow)
      omega
  simp only [nearestRank, Nat.div_one, hlog]
  simpa using roundEven_mul n Nat.one_pos

end Binary64

end ActionChain
