import ActionChain.Numeric.Binary64
import Mathlib.Algebra.Order.Ring.Int
import Mathlib.Tactic.Ring

/-!
# Integers Among Floating-Point Numbers

Integers up to `2 ^ 53` are floating-point numbers and add without loss.

A positive integer that small can be written with a full significand, of 53
digits, in the spacing its leading digit calls for. Rounding to the nearest rank
then has nothing to round, and counting the units of that rank gives the integer
back. A sum is rounded from its exact value, so it is exact whenever that value
is such an integer, wherever the two terms came from.

## Main definitions

* `Binary64.IsInt`: a number that is an integer.

## Theorems

* `Binary64.nearestRank_significand`, `Binary64.units_significand`: a full
  significand in any spacing, to its rank and back.
* `Binary64.exists_significand_rank`: high ranks have one.
* `Binary64.Finite.sameValue_iff`: to have the same value is to be equal exactly.
* `Binary64.exists_significand`: small integers have one.
* `Binary64.exists_finite_ofInt`: integers of 64 bits do not overflow.
* `Binary64.isInt_ofInt`: a small integer is not rounded.
* `Binary64.IsInt.add`: small integers add up exactly.
-/

namespace ActionChain

namespace Binary64

/-- A number that is an integer. Both zeros are. -/
def IsInt (x : Binary64) (i : Int) : Prop := ∃ f : Finite, x = .finite f ∧ f.scaled = i * unitsOfOne

/-! ## Magnitudes without rounding -/

theorem binade_eq : binade = 2 ^ 52 := rfl

/-- The exponent goes by a name, so that nothing tries to compute the power. -/
theorem unitsOfOne_eq {k : Nat} (hk : 1074 = k) : unitsOfOne = 2 ^ k := by
  unfold unitsOfOne
  rw [hk]
  exact Nat.pow_eq

theorem unitsOfOne_pos : 0 < unitsOfOne := by
  obtain ⟨k, hk⟩ : ∃ k, 1074 = k := ⟨_, rfl⟩
  rw [unitsOfOne_eq hk]
  exact Nat.two_pow_pos k

/-- A full significand in any spacing is a magnitude of its own. -/
theorem nearestRank_significand {m : Nat} (hm : binade ≤ m) (hm' : m < 2 * binade) (shift : Nat) :
    nearestRank (m * 2 ^ shift) 1 = shift * binade + m := by
  have hpos : 0 < 2 ^ shift := Nat.two_pow_pos shift
  rw [binade_eq] at hm hm'
  have hne : m * 2 ^ shift ≠ 0 := (Nat.mul_pos (by omega) hpos).ne'
  have hlog : (m * 2 ^ shift).log2 = 52 + shift := by
    refine Nat.le_antisymm (Nat.lt_succ_iff.1 ((Nat.log2_lt hne).2 ?_))
      ((Nat.le_log2 hne).2 ?_)
    · calc m * 2 ^ shift < 2 * 2 ^ 52 * 2 ^ shift := Nat.mul_lt_mul_of_pos_right hm' hpos
        _ = 2 ^ (52 + shift + 1) := by ring
    · calc 2 ^ (52 + shift) = 2 ^ 52 * 2 ^ shift := Nat.pow_add ..
        _ ≤ m * 2 ^ shift := Nat.mul_le_mul_right _ hm
  unfold nearestRank
  rw [Nat.div_one, hlog, Nat.add_sub_cancel_left]
  dsimp only
  rw [Nat.pow_eq, Nat.one_mul, roundEven_mul m hpos]

theorem units_significand {m : Nat} (hm : binade ≤ m) (hm' : m < 2 * binade) (shift : Nat) :
    units (shift * binade + m) = m * 2 ^ shift := by
  have hpos : 0 < binade := Nat.two_pow_pos 52
  unfold units
  generalize binade = b at *
  -- The rank is one binade further on, by the leading digit of the significand.
  have hrank : shift * b + m = (m - b) + b * (shift + 1) := by
    rw [Nat.mul_add, Nat.mul_comm b shift]
    omega
  have hlow : m - b < b := by omega
  have hge : ¬ shift * b + m < b := by omega
  rw [if_neg hge, hrank, Nat.add_mul_mod_self_left, Nat.mod_eq_of_lt hlow,
    Nat.add_mul_div_left _ _ hpos, Nat.div_eq_of_lt hlow, Nat.pow_eq, Nat.zero_add,
    Nat.add_sub_cancel, Nat.add_sub_cancel' hm]

/-- A rank above the first binade is a full significand in a spacing. -/
theorem exists_significand_rank {rank : Nat} (h : binade ≤ rank) :
    ∃ m shift, binade ≤ m ∧ m < 2 * binade ∧ rank = shift * binade + m := by
  have hpos : 0 < binade := Nat.two_pow_pos 52
  have hone : 1 ≤ rank / binade := (Nat.one_le_div_iff hpos).2 h
  have hmod : rank % binade < binade := Nat.mod_lt _ hpos
  refine ⟨binade + rank % binade, rank / binade - 1, Nat.le_add_right _ _, by omega, ?_⟩
  calc rank = (rank / binade - 1 + 1) * binade + rank % binade := by
        rw [Nat.sub_add_cancel hone, Nat.div_add_mod']
    _ = (rank / binade - 1) * binade + (binade + rank % binade) := by ring

/-- Counting the units of a rank loses nothing. -/
theorem nearestRank_units (rank : Nat) : nearestRank (units rank) 1 = rank := by
  by_cases hlow : rank < binade
  · unfold units
    rw [if_pos hlow]
    exact nearestRank_of_lt (by omega)
  · rcases exists_significand_rank (Nat.le_of_not_lt hlow) with ⟨m, shift, hm, hm', rfl⟩
    rw [units_significand hm hm', nearestRank_significand hm hm']

/-- Two numbers have the same value if their exact values are equal. -/
theorem Finite.sameValue_iff (x y : Finite) : x.sameValue y = true ↔ x.scaled = y.scaled := by
  have hinj : ∀ {a b : Nat}, units a = units b → a = b := by
    intro a b h
    rw [← nearestRank_units a, h, nearestRank_units]
  have hzero : units 0 = 0 := rfl
  simp only [Finite.sameValue, Bool.and_eq_true, Bool.or_eq_true, beq_iff_eq]
  constructor
  · rintro ⟨hrank, hsign⟩
    unfold Finite.scaled
    rw [← hrank]
    rcases hsign with hx | hsign
    · rw [hx, hzero]
      simp
    · rw [hsign]
  · intro h
    unfold Finite.scaled at h
    by_cases hsign : x.negative = y.negative
    · rw [hsign] at h
      refine ⟨hinj ?_, .inr hsign⟩
      split at h <;> omega
    · -- Numbers of opposite signs meet at zero only.
      have hnone : units x.rank = 0 ∧ units y.rank = 0 := by
        cases hx : x.negative <;> cases hy : y.negative <;> simp [hx, hy] at h hsign ⊢ <;> omega
      have hx : x.rank = 0 := hinj (hnone.1.trans hzero.symm)
      have hy : y.rank = 0 := hinj (hnone.2.trans hzero.symm)
      exact ⟨hx.trans hy.symm, .inl hx⟩

/-- Every positive integer up to `2 ^ 53` is a full significand in one of the
lower spacings. -/
theorem exists_significand {n : Nat} (hpos : 0 < n) (hle : n ≤ 2 ^ 53) :
    ∃ m shift, binade ≤ m ∧ m < 2 * binade ∧ shift ≤ 1075 ∧ n * unitsOfOne = m * 2 ^ shift := by
  obtain ⟨k, hk⟩ : ∃ k, 1074 = k := ⟨_, rfl⟩
  rw [binade_eq, unitsOfOne_eq hk]
  rcases Nat.lt_or_eq_of_le hle with hlt | rfl
  -- The digits move up until the leading one is in the place of `2 ^ 52`.
  · have hlog : n.log2 < 53 := (Nat.log2_lt hpos.ne').2 hlt
    have hlow : 2 ^ n.log2 ≤ n := (Nat.le_log2 hpos.ne').1 (Nat.le_refl _)
    have hhigh : n < 2 ^ (n.log2 + 1) := (Nat.log2_lt hpos.ne').1 (Nat.lt_succ_self _)
    have hsplit : 52 = n.log2 + (52 - n.log2) := by omega
    refine ⟨n * 2 ^ (52 - n.log2), k - 52 + n.log2, ?_, ?_, by omega, ?_⟩
    · calc 2 ^ 52 = 2 ^ n.log2 * 2 ^ (52 - n.log2) := by rw [← Nat.pow_add, ← hsplit]
        _ ≤ n * 2 ^ (52 - n.log2) := Nat.mul_le_mul_right _ hlow
    · calc n * 2 ^ (52 - n.log2) < 2 ^ (n.log2 + 1) * 2 ^ (52 - n.log2) :=
            Nat.mul_lt_mul_of_pos_right hhigh (Nat.two_pow_pos _)
        _ = 2 * (2 ^ n.log2 * 2 ^ (52 - n.log2)) := by rw [Nat.pow_succ]; ring
        _ = 2 * 2 ^ 52 := by rw [← Nat.pow_add, ← hsplit]
    · have hexponent : k = 52 - n.log2 + (k - 52 + n.log2) := by omega
      rw [Nat.mul_assoc, ← Nat.pow_add, ← hexponent]
  -- One digit more than there is room for, but the last one is zero.
  · have hexponent : 53 + k = 52 + (k + 1) := by omega
    refine ⟨2 ^ 52, k + 1, Nat.le_refl _, by omega, by omega, ?_⟩
    rw [← Nat.pow_add, ← Nat.pow_add, hexponent]

/-- A magnitude that is an integer up to `2 ^ 53` is not rounded. -/
theorem isInt_ofRatio (negative : Bool) {n : Nat} (hpos : 0 < n) (hle : n ≤ 2 ^ 53) :
    (ofRatio negative (n * unitsOfOne) 1).IsInt (if negative then -n else n) := by
  rcases exists_significand hpos hle with ⟨m, shift, hm, hm', hshift, hvalue⟩
  have hrank : nearestRank (n * unitsOfOne) 1 = shift * binade + m := by
    rw [hvalue, nearestRank_significand hm hm']
  -- Spacings that low are far from where rounding overflows.
  have hlt : nearestRank (n * unitsOfOne) 1 < ranks := by
    rw [hrank]
    unfold ranks
    have hmul : shift * binade ≤ 1075 * binade := Nat.mul_le_mul_right _ hshift
    have hbinade := binade_eq
    omega
  refine ⟨⟨negative, _, hlt⟩, dif_pos hlt, ?_⟩
  have hunits : units (nearestRank (n * unitsOfOne) 1) = n * unitsOfOne := by
    rw [hrank, units_significand hm hm', hvalue]
  unfold Finite.scaled
  simp only [hunits]
  generalize unitsOfOne = one
  cases negative <;> simp

/-- Rounding leaves a magnitude in the spacing of its leading digit, or carries into
the next. -/
theorem nearestRank_le (n : Nat) : nearestRank n 1 ≤ (n.log2 - 52) * binade + 2 ^ 53 := by
  unfold nearestRank
  rw [Nat.div_one]
  dsimp only
  rw [Nat.pow_eq, Nat.one_mul]
  -- The significand has 53 digits before it is rounded.
  have hdigits : n / 2 ^ (n.log2 - 52) < 2 ^ 53 := by
    rw [Nat.div_lt_iff_lt_mul (Nat.two_pow_pos _), ← Nat.pow_add]
    refine Nat.lt_of_lt_of_le Nat.lt_log2_self ?_
    exact Nat.pow_le_pow_right Nat.two_pos (by omega)
  have hround : roundEven n (2 ^ (n.log2 - 52)) ≤ n / 2 ^ (n.log2 - 52) + 1 := by
    unfold roundEven
    dsimp only
    split
    · omega
    · split <;> omega
  omega

/-- An integer of at most 64 bits is far from where rounding overflows. -/
theorem exists_finite_ofInt {i : Int} (hi : i.natAbs < 2 ^ 64) : ∃ x, ofInt i = .finite x := by
  obtain ⟨k, hk⟩ : ∃ k, 1074 = k := ⟨_, rfl⟩
  have hn : i.natAbs * unitsOfOne < 2 ^ (64 + k) := by
    rw [unitsOfOne_eq hk, Nat.pow_add]
    exact Nat.mul_lt_mul_of_pos_right hi (Nat.two_pow_pos k)
  have hlog : (i.natAbs * unitsOfOne).log2 ≤ 64 + k := by
    rcases Nat.eq_zero_or_pos (i.natAbs * unitsOfOne) with hzero | hpos
    · rw [hzero]
      exact Nat.zero_le _
    · exact Nat.le_of_lt ((Nat.log2_lt hpos.ne').2 hn)
  have hlt : nearestRank (i.natAbs * unitsOfOne) 1 < ranks := by
    have hle := nearestRank_le (i.natAbs * unitsOfOne)
    have hshift : ((i.natAbs * unitsOfOne).log2 - 52) * binade ≤ 1086 * binade :=
      Nat.mul_le_mul_right _ (by omega)
    have hbinade := binade_eq
    unfold ranks
    omega
  exact ⟨_, dif_pos hlt⟩

theorem isInt_zero : zero.IsInt 0 := ⟨_, rfl, (Int.zero_mul _).symm⟩

theorem isInt_ofInt {i : Int} (hi : i.natAbs ≤ 2 ^ 53) : (ofInt i).IsInt i := by
  by_cases hzero : i = 0
  · subst hzero
    unfold ofInt
    rw [Int.natAbs_zero, Nat.zero_mul]
    exact isInt_zero
  · have hint := isInt_ofRatio (decide (i < 0)) (Int.natAbs_pos.2 hzero) hi
    have hvalue : (if decide (i < 0) = true then -(i.natAbs : Int) else i.natAbs) = i := by
      simp only [decide_eq_true_eq]
      omega
    rwa [hvalue] at hint

theorem scaled_zero (negative : Bool) : (Finite.zero negative).scaled = 0 := by
  cases negative <;> rfl

/-- Integers add up exactly as long as the sum is no larger than `2 ^ 53`. -/
theorem IsInt.add {x y : Binary64} {i j : Int} (hx : x.IsInt i) (hy : y.IsInt j)
    (hsum : (i + j).natAbs ≤ 2 ^ 53) : (x + y).IsInt (i + j) := by
  rcases hx with ⟨f, rfl, hf⟩
  rcases hy with ⟨g, rfl, hg⟩
  have hpos : (0 : Int) < unitsOfOne := Int.natCast_pos.2 unitsOfOne_pos
  have hscaled : f.scaled + g.scaled = (i + j) * unitsOfOne := by rw [hf, hg, Int.add_mul]
  show (Binary64.add (.finite f) (.finite g)).IsInt (i + j)
  unfold Binary64.add
  simp only [hscaled]
  by_cases hzero : i + j = 0
  · rw [hzero, Int.zero_mul, if_pos rfl]
    exact ⟨_, rfl, (scaled_zero _).trans (Int.zero_mul _).symm⟩
  · have hsign : (i + j) * unitsOfOne < 0 ↔ i + j < 0 :=
      ⟨fun h => neg_of_mul_neg_left h hpos.le, fun h => Int.mul_neg_of_neg_of_pos h hpos⟩
    rw [if_neg (Int.mul_ne_zero hzero hpos.ne'), Int.natAbs_mul, Int.natAbs_natCast,
      decide_eq_decide.2 hsign]
    exact isInt_ofInt hsum

end Binary64

end ActionChain
