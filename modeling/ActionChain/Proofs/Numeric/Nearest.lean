import ActionChain.Json.Basic
import ActionChain.Proofs.Numeric.Exact
import Mathlib.Order.Monotone.Basic

/-!
# The Nearest Number

Rounding finds the floating-point number nearest to an integer.

Between two neighbouring ranks lies one spacing. A magnitude of more than 53 binary digits
lies between a significand of its first 53 digits and the next one, in the spacing of its
leading digit, and rounding takes the end that is nearer, or the even one of two that are
equally near. Ranks rise with their magnitudes, so all others are further away. If the next
significand has a digit too many it is the first of the next spacing, and the same magnitude
either way.

## Main definitions

* `Binary64.Finite.Nearest`: no finite number is nearer, and of two the even one.
* `Number.exact`: the exact value of a number of a tree.

## Theorems

* `Binary64.strictMono_units`: ranks rise with their magnitudes.
* `Binary64.nearestRank_nearest`: rounding a magnitude.
* `Number.exists_nearest`: a number of a tree becomes the nearest one.
-/

namespace ActionChain

namespace Binary64

/-! ## Ranks and magnitudes -/

/-- A significand with a digit too many is the first one of the next spacing. -/
theorem units_carry {m : Nat} (hm : binade ≤ m) (hm' : m ≤ 2 * binade) (shift : Nat) :
    units (shift * binade + m) = m * 2 ^ shift := by
  rcases Nat.lt_or_eq_of_le hm' with hlt | rfl
  · exact units_significand hm hlt shift
  · have hrank : shift * binade + 2 * binade = (shift + 1) * binade + binade := by ring
    have hpos : 0 < binade := Nat.two_pow_pos 52
    rw [hrank, units_significand (Nat.le_refl _) (by omega), Nat.pow_succ]
    ring

/-- As long as the spacing is a unit, ranks are their own magnitudes. -/
theorem units_of_le {rank : Nat} (h : rank ≤ 2 * binade) : units rank = rank := by
  rcases Nat.lt_or_ge rank binade with hlt | hge
  · exact if_pos hlt
  · have hunits := units_carry hge h 0
    rwa [Nat.zero_mul, Nat.zero_add, Nat.pow_zero, Nat.mul_one] at hunits

/-- Ranks rise with their magnitudes. -/
theorem strictMono_units : StrictMono units := by
  refine strictMono_nat_of_lt_succ fun rank => ?_
  rcases Nat.lt_or_ge rank binade with hlow | hhigh
  · rw [units_of_le (by omega), units_of_le (by omega)]
    exact Nat.lt_succ_self rank
  · -- Both neighbours are written in the spacing of the lower one.
    rcases exists_significand_rank hhigh with ⟨m, shift, hm, hm', rfl⟩
    rw [Nat.add_assoc, units_carry hm hm'.le, units_carry (by omega) (by omega)]
    exact Nat.mul_lt_mul_of_pos_right (Nat.lt_succ_self m) (Nat.two_pow_pos shift)

/-! ## Rounding -/

/-- How far the magnitude of a rank is from another. -/
def gap (rank n : Nat) : Nat := ((units rank : Int) - n).natAbs

/-- Of two neighbours with a magnitude between them, the nearer one is the nearest of all
ranks; if they are equally near, both are. -/
theorem gap_le_of_between {low n c : Nat} (hlow : units low ≤ n) (hhigh : n ≤ units (low + 1))
    (hc : gap c n ≤ gap low n ∧ gap c n ≤ gap (low + 1) n) (rank : Nat) :
    gap c n ≤ gap rank n ∧ (gap c n = gap rank n → rank = low ∨ rank = low + 1) := by
  have hbelow : rank < low → units rank < units low := fun h => strictMono_units h
  have habove : low + 1 < rank → units (low + 1) < units rank := fun h => strictMono_units h
  rcases Nat.lt_trichotomy rank low with hrank | rfl | hrank
  · have hfar := hbelow hrank
    unfold gap at *
    omega
  · exact ⟨hc.1, fun _ => .inl rfl⟩
  · rcases Nat.eq_or_lt_of_le hrank with rfl | hrank
    · exact ⟨hc.2, fun _ => .inr rfl⟩
    · have hfar := habove hrank
      unfold gap at *
      omega

/-- A magnitude with a digit to round off lies between the significand of its first digits and
the next one, and is rounded by its distance from the two. -/
theorem exists_between {n : Nat} (h : 2 * binade ≤ n) :
    ∃ low, units low ≤ n ∧ n < units (low + 1) ∧ nearestRank n 1 =
      if gap low n < gap (low + 1) n then low
      else if gap (low + 1) n < gap low n then low + 1
      else low + low % 2 := by
  have hbinade := binade_eq
  have hne : n ≠ 0 := by omega
  have hlog : 53 ≤ n.log2 := (Nat.le_log2 hne).2 (by omega)
  obtain ⟨shift, hshift⟩ := Nat.exists_eq_add_of_le (Nat.le_of_succ_le hlog : 52 ≤ n.log2)
  have hpos : 0 < 2 ^ shift := Nat.two_pow_pos shift
  -- The first 53 digits make a full significand.
  have hm : binade ≤ n / 2 ^ shift := by
    rw [Nat.le_div_iff_mul_le hpos, binade_eq, ← Nat.pow_add, ← hshift]
    exact (Nat.le_log2 hne).1 (Nat.le_refl _)
  have hm' : n / 2 ^ shift < 2 * binade := by
    rw [Nat.div_lt_iff_lt_mul hpos]
    calc n < 2 ^ (52 + shift + 1) := (Nat.log2_lt hne).1 (by omega)
      _ = 2 * binade * 2 ^ shift := by rw [binade_eq]; ring
  have hlow := units_carry hm hm'.le shift
  have hhigh := units_carry (Nat.le_succ_of_le hm) hm' shift
  have hsplit := Nat.div_add_mod' n (2 ^ shift)
  have hmod := Nat.mod_lt n hpos
  have hround : nearestRank n 1 = shift * binade + roundEven n (2 ^ shift) := by
    unfold nearestRank
    rw [Nat.div_one, hshift, Nat.add_sub_cancel_left]
    dsimp only
    rw [Nat.pow_eq, Nat.one_mul]
  -- A binade has evenly many ranks, so the rank is even if the significand is.
  have hparity : (shift * binade + n / 2 ^ shift) % 2 = n / 2 ^ shift % 2 := by
    rw [binade_eq]
    omega
  rw [Nat.succ_mul] at hhigh
  refine ⟨shift * binade + n / 2 ^ shift, by omega, ?_, ?_⟩
  · rw [Nat.add_assoc, hhigh]
    omega
  · have hgap : gap (shift * binade + n / 2 ^ shift) n = n % 2 ^ shift := by
      rw [gap, hlow]
      omega
    have hgap' : gap (shift * binade + n / 2 ^ shift + 1) n = 2 ^ shift - n % 2 ^ shift := by
      rw [gap, Nat.add_assoc, hhigh]
      omega
    rw [hround, hgap, hgap', hparity, roundEven]
    split_ifs <;> omega

/-- Rounding a magnitude finds the rank nearest to it, and of two the even one. -/
theorem nearestRank_nearest (n rank : Nat) :
    gap (nearestRank n 1) n ≤ gap rank n ∧
      (gap (nearestRank n 1) n = gap rank n → rank = nearestRank n 1 ∨ nearestRank n 1 % 2 = 0) := by
  rcases Nat.lt_or_ge n (2 * binade) with hsmall | hlarge
  -- There is nothing to round where the spacing is a unit.
  · have hexact := units_of_le hsmall.le
    have hzero : gap n n = 0 := by rw [gap, hexact, Int.sub_self, Int.natAbs_zero]
    rw [nearestRank_of_lt hsmall, hzero]
    refine ⟨Nat.zero_le _, fun h => .inl (strictMono_units.injective ?_)⟩
    rw [gap] at h
    omega
  · rcases exists_between hlarge with ⟨low, hlow, hhigh, hround⟩
    have hnearest := fun hc => gap_le_of_between (c := nearestRank n 1) hlow hhigh.le hc rank
    rw [hround] at hnearest ⊢
    split_ifs at hnearest ⊢ with hlt hgt
    · refine (hnearest ⟨Nat.le_refl _, hlt.le⟩).imp_right fun h heq => ?_
      rcases h heq with rfl | rfl
      · exact .inl rfl
      · omega
    · refine (hnearest ⟨hgt.le, Nat.le_refl _⟩).imp_right fun h heq => ?_
      rcases h heq with rfl | rfl
      · omega
      · exact .inl rfl
    · have heven : (low + low % 2) % 2 = 0 := by omega
      have hsame : gap (low + low % 2) n = gap low n := by
        rcases Nat.mod_two_eq_zero_or_one low with hmod | hmod <;> rw [hmod]
        · rfl
        · omega
      exact ⟨(hnearest ⟨by omega, by omega⟩).1, fun _ => .inr heven⟩

/-! ## Numbers with a sign -/

namespace Finite

/-- How far a number is from a value in units of `2 ^ -1074`. -/
def distance (x : Finite) (value : Int) : Nat := (x.scaled - value).natAbs

/-- No finite number is nearer to a value, and one as near with another value is there only if
the rank is even. -/
structure Nearest (x : Finite) (value : Int) : Prop where
  le : ∀ y : Finite, x.distance value ≤ y.distance value
  even : ∀ y : Finite, x.distance value = y.distance value →
    y.scaled = x.scaled ∨ x.rank % 2 = 0

/-- A number is nearest to its own value. -/
theorem nearest_scaled (x : Finite) : x.Nearest x.scaled := by
  have hzero : x.distance x.scaled = 0 := by rw [distance, Int.sub_self, Int.natAbs_zero]
  refine ⟨fun y => hzero ▸ Nat.zero_le _, fun y h => .inl ?_⟩
  rw [hzero, distance] at h
  omega

end Finite

/-- A magnitude under a sign. -/
def signed (negative : Bool) (n : Nat) : Int := if negative then -n else n

namespace Finite

theorem distance_of_eq {x : Finite} {negative : Bool} (h : x.negative = negative) (n : Nat) :
    x.distance (signed negative n) = gap x.rank n := by
  unfold distance scaled signed gap
  rw [h]
  split <;> omega

theorem distance_of_ne {x : Finite} {negative : Bool} (h : x.negative ≠ negative) (n : Nat) :
    x.distance (signed negative n) = units x.rank + n := by
  unfold distance scaled signed
  rw [Bool.eq_not.2 h]
  cases negative <;> simp only [Bool.not_false, Bool.not_true, if_true, Bool.false_eq_true, if_false]
    <;> omega

end Finite

/-- A rounded magnitude under a sign is nearest to the magnitude under the sign. -/
theorem nearest_of_nearestRank {negative : Bool} {n : Nat} (h : nearestRank n 1 < ranks) :
    Finite.Nearest ⟨negative, nearestRank n 1, h⟩ (signed negative n) := by
  have hnearest := nearestRank_nearest n
  have hzero : gap 0 n = n := by
    rw [gap, units_of_le (Nat.zero_le _)]
    omega
  have hself : Finite.distance ⟨negative, nearestRank n 1, h⟩ (signed negative n) =
      gap (nearestRank n 1) n := Finite.distance_of_eq rfl n
  have hle := (hnearest 0).1
  -- A number of the other sign is no nearer than zero.
  refine ⟨fun y => ?_, fun y heq => ?_⟩
  · rw [hself]
    by_cases hsign : y.negative = negative
    · rw [Finite.distance_of_eq hsign]
      exact (hnearest y.rank).1
    · rw [Finite.distance_of_ne hsign]
      omega
  · rw [hself] at heq
    by_cases hsign : y.negative = negative
    · rw [Finite.distance_of_eq hsign] at heq
      refine ((hnearest y.rank).2 heq).imp_left fun hrank => ?_
      unfold Finite.scaled
      rw [hsign, hrank]
    · rw [Finite.distance_of_ne hsign] at heq
      have hy : units y.rank = 0 := by omega
      refine ((hnearest 0).2 (by omega)).imp_left fun hrank => ?_
      have hx : units (nearestRank n 1) = 0 := by
        rw [← hrank]
        exact units_of_le (Nat.zero_le _)
      unfold Finite.scaled
      rw [hx, hy]
      simp

/-- An integer becomes the number nearest to it. -/
theorem nearest_ofInt {i : Int} {x : Finite} (h : ofInt i = .finite x) :
    x.Nearest (i * unitsOfOne) := by
  unfold ofInt ofRatio at h
  split at h
  · rename_i hlt
    cases h
    have hvalue : i * unitsOfOne = signed (i < 0) (i.natAbs * unitsOfOne) := by
      unfold signed
      rw [Int.natCast_mul]
      generalize (unitsOfOne : Int) = one
      split
      · rename_i hneg
        rw [← Int.neg_mul, Int.ofNat_natAbs_of_nonpos (of_decide_eq_true hneg).le,
          Int.neg_neg]
      · rename_i hneg
        rw [Int.natAbs_of_nonneg (by simpa using hneg)]
    rw [hvalue]
    exact nearest_of_nearestRank hlt
  · cases h

end Binary64

namespace Number

/-- The exact value of a number of a tree, in units of `2 ^ -1074`. -/
def exact : Number → Int
  | .int i _ => i * Binary64.unitsOfOne
  | .float x => x.scaled

/-- A number of a tree becomes the nearest floating-point number. -/
theorem exists_nearest (n : Number) : ∃ x, n.toBinary64 = .finite x ∧ x.Nearest n.exact := by
  cases n with
  | int i h =>
      rcases Binary64.exists_finite_ofInt (i := i) (by unfold InRange at h; omega) with ⟨x, hx⟩
      exact ⟨x, hx, Binary64.nearest_ofInt hx⟩
  | float x => exact ⟨x, rfl, x.nearest_scaled⟩

end Number

end ActionChain
