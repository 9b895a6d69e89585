import ActionChain.Proofs.Json.Scanning

/-!
# Spelled Numbers

Every number is spelled as a literal.

A decimal is laid out from the digits of one natural number. Those start with
a zero only if the number is zero, which is what the grammar needs to know
about the whole part wherever the point stands; padding with zeros and moving
to an exponent add parts of their own. That the digits of a shortest decimal
are not zero follows from what the search promises: the decimal stands for the
number, and zero digits stand for zero.

An integer has no other part than its digits, so it is read back as itself.

## Main definitions

* `Number.source`: what is read from the characters of a number.

## Theorems

* `Decimal.exists_shape`: a decimal laid out for a file is a literal.
* `Number.exists_shape`: so is every spelled number.
* `Number.value?_spell`: a spelled number is read off the front.
* `Number.source_int`: integers are read back as themselves.
-/

namespace ActionChain

open Scan (Shape Ends)

/-! ## Digits -/

/-- The code points of the digits. -/
theorem toNat_of_isDigit {c : Char} (h : c.isDigit = true) : 48 ≤ c.toNat ∧ c.toNat ≤ 57 := by
  simp only [Char.isDigit, Bool.and_eq_true, decide_eq_true_eq, ge_iff_le,
    UInt32.le_iff_toNat_le] at h
  exact h

theorem isDigit_of_mem_digits {n : Nat} : ∀ c ∈ Nat.toDigits 10 n, c.isDigit = true :=
  fun _ hc => Nat.isDigit_of_mem_toDigits (by decide) (by decide) hc

theorem digitChar_ne_zero : ∀ n < 10, n ≠ 0 → Nat.digitChar n ≠ '0' := by decide

/-- The digits of a number that is not zero do not start with a zero. -/
theorem head?_toDigits_ne {n : Nat} (hn : n ≠ 0) : (Nat.toDigits 10 n).head? ≠ some '0' := by
  induction n using Nat.strongRecOn with
  | ind n ih =>
      rw [Nat.toDigits_eq_if (by decide)]
      -- The first digit is that of the number without its last one, down to a single digit.
      by_cases hlt : n < 10
      · rw [if_pos hlt, List.head?_cons]
        intro h
        exact digitChar_ne_zero n hlt hn (Option.some.inj h)
      · have hfront := ih (n / 10) (by omega) (by omega)
        cases hds : Nat.toDigits 10 (n / 10) with
        | nil => exact absurd hds Nat.toDigits_ne_nil
        | cons c more =>
            rw [hds] at hfront
            rw [if_neg hlt, List.cons_append]
            exact hfront

theorem digitsValue_toDigits (n : Nat) : Text.digitsValue (Nat.toDigits 10 n) = n := by
  have hpush : ∀ (cs : List Char) (m : Nat), Text.appendDigits m cs = Nat.ofDigitChars 10 cs m := by
    intro cs m
    induction cs generalizing m with
    | nil => rfl
    | cons c rest ih =>
        rw [Text.appendDigits_cons, ih, Nat.ofDigitChars_cons, Text.pushDigit, Nat.mul_comm]
  rw [Text.digitsValue, hpush, Nat.ofDigitChars_ten_toDigits]

/-! ## Decimals -/

namespace Decimal

open Binary64 (Finite)

/-- A decimal whose digits are laid out as the grammar wants them: zero has no
exponent. -/
def Plain (d : Decimal) : Prop := d.digits = 0 → d.exponent = 0

/-- If the digits of a number start with a zero, the number is zero and that is
its only digit. -/
theorem of_head?_toDigits {n : Nat} (h : (Nat.toDigits 10 n).head? = some '0') :
    n = 0 ∧ (Nat.toDigits 10 n).length = 1 := by
  by_cases hn : n = 0
  · subst hn
    exact ⟨rfl, by rw [Nat.toDigits_zero]; rfl⟩
  · exact absurd h (head?_toDigits_ne hn)

/-- Zeros are digits. -/
theorem isDigit_of_mem_zeros (k : Nat) : ∀ c ∈ List.replicate k '0', c.isDigit = true := by
  intro c hc
  rw [List.eq_of_mem_replicate hc]
  rfl

variable {d : Decimal}

/-- Digits on both sides of a point are a literal, unless a zero starts a longer
whole part. -/
theorem exists_shape_point {whole fraction : List Char} (hwhole : whole ≠ [])
    (hdigits : ∀ c ∈ whole, c.isDigit = true)
    (hzero : whole.head? = some '0' → whole.length = 1) (hfraction : fraction ≠ [])
    (hdigits' : ∀ c ∈ fraction, c.isDigit = true) :
    ∃ s : Shape, s.Valid ∧ whole ++ '.' :: fraction = s.chars := by
  refine ⟨⟨whole, fraction, none⟩, ⟨hwhole, hdigits, hzero, hdigits', ?_⟩, ?_⟩
  · exact fun _ h => absurd h (Option.not_mem_none _)
  · simp [Shape.chars, Shape.fractionChars, Shape.exponentChars, hfraction]

/-- With a point among the digits or beside them, a decimal is a literal. -/
theorem exists_shape_plain (hd : d.Plain) :
    ∃ s : Shape, s.Valid ∧ Layout.file.spellPlain (Nat.toDigits 10 d.digits)
      ((Nat.toDigits 10 d.digits).length + d.exponent) = s.chars := by
  have hdigits := isDigit_of_mem_digits (n := d.digits)
  have hpos := Nat.length_toDigits_pos (b := 10) (n := d.digits)
  have hfront : (Nat.toDigits 10 d.digits).head? = some '0' →
      (Nat.toDigits 10 d.digits).length = 1 ∧ d.exponent = 0 :=
    fun hhead => ⟨(of_head?_toDigits hhead).2, hd (of_head?_toDigits hhead).1⟩
  -- From here on the digits matter only through these three facts.
  generalize Nat.toDigits 10 d.digits = digits at *
  generalize hpoint : (digits.length : Int) + d.exponent = point
  have hne : digits ≠ [] := List.ne_nil_of_length_pos hpos
  unfold Layout.spellPlain
  by_cases hlow : point ≤ 0
  · -- The point stands in front of the digits, behind a zero of its own.
    rw [if_pos hlow]
    refine exists_shape_point (List.cons_ne_nil '0' []) (isDigit_of_mem_zeros 1) (fun _ => rfl)
      (fun hnil => hne (List.append_eq_nil_iff.1 hnil).2) ?_
    intro c hc
    rcases List.mem_append.1 hc with hc | hc
    · exact isDigit_of_mem_zeros _ c hc
    · exact hdigits c hc
  · rw [if_neg hlow]
    by_cases hwhole : digits.length ≤ point.toNat
    · -- The point stands behind the digits and the zeros that fill up to it.
      rw [if_pos hwhole]
      refine exists_shape_point (fun hnil => hne (List.append_eq_nil_iff.1 hnil).1) ?_ ?_
        (List.cons_ne_nil '0' []) (isDigit_of_mem_zeros 1)
      · intro c hc
        rcases List.mem_append.1 hc with hc | hc
        · exact hdigits c hc
        · exact isDigit_of_mem_zeros _ c hc
      · intro hhead
        -- A zero in front is the number zero, which nothing is added to.
        have hhead' : digits.head? = some '0' := by
          cases digits with
          | nil => exact absurd rfl hne
          | cons c more => exact hhead
        rcases hfront hhead' with ⟨hlen, hexp⟩
        rw [List.length_append, List.length_replicate]
        omega
    · -- The point stands among the digits.
      rw [if_neg hwhole]
      refine exists_shape_point ?_ (fun c hc => hdigits c (List.mem_of_mem_take hc)) ?_ ?_
        fun c hc => hdigits c (List.mem_of_mem_drop hc)
      · intro hnil
        have hlen := congrArg List.length hnil
        rw [List.length_take, List.length_nil] at hlen
        omega
      · intro hhead
        rw [List.head?_take, if_neg (by omega)] at hhead
        have hlen := (hfront hhead).1
        omega
      · intro hnil
        have hlen := congrArg List.length hnil
        rw [List.length_drop, List.length_nil] at hlen
        omega

/-- With an exponent, a decimal that is not zero is a literal, and so is zero. -/
theorem exists_shape_scientific (n : Nat) (point : Int) :
    ∃ s : Shape, s.Valid ∧ Layout.spellScientific (Nat.toDigits 10 n) point = s.chars := by
  have hdigits := isDigit_of_mem_digits (n := n)
  have hpos := Nat.length_toDigits_pos (b := 10) (n := n)
  generalize Nat.toDigits 10 n = digits at *
  refine ⟨⟨digits.take 1, digits.drop 1, some (decide (point - 1 < 0),
    Nat.toDigits 10 (point - 1).natAbs)⟩, ⟨?_, ?_, ?_, ?_, ?_⟩, ?_⟩
  · intro hnil
    have hlen := congrArg List.length hnil
    rw [List.length_take, List.length_nil] at hlen
    omega
  · exact fun c hc => hdigits c (List.mem_of_mem_take hc)
  · intro _
    rw [List.length_take]
    omega
  · exact fun c hc => hdigits c (List.mem_of_mem_drop hc)
  · intro p hp
    cases hp
    exact ⟨Nat.toDigits_ne_nil, isDigit_of_mem_digits⟩
  · have hone : digits.length = 1 ↔ digits.drop 1 = [] := by
      rw [List.drop_eq_nil_iff]
      omega
    simp only [Layout.spellScientific, Shape.chars, Shape.fractionChars, Shape.exponentChars, hone,
      decide_eq_true_eq, List.append_assoc]

/-- A decimal laid out for a file is a literal. -/
theorem exists_shape (hd : d.Plain) : ∃ s : Shape, s.Valid ∧ Layout.file.spell d = s.chars := by
  unfold Layout.spell
  by_cases hplain : Layout.file.plain ((Nat.toDigits 10 d.digits).length + d.exponent) = true
  · simp only [hplain, if_true]
    exact exists_shape_plain hd
  · simp only [hplain]
    exact exists_shape_scientific _ _

theorem units_ne_zero {rank : Nat} (h : rank ≠ 0) : Binary64.units rank ≠ 0 := by
  unfold Binary64.units
  by_cases hlow : rank < Binary64.binade
  · rw [if_pos hlow]
    exact h
  · rw [if_neg hlow]
    have hbinade : 0 < Binary64.binade := by decide
    have hpow : 0 < Nat.pow 2 (rank / Binary64.binade - 1) := Nat.pow_pos (by decide)
    exact Nat.ne_of_gt (Nat.mul_pos (by omega) hpow)

theorem pow_ne_zero_of_five (k : Nat) : Nat.pow 5 k ≠ 0 := Nat.ne_of_gt (Nat.pow_pos (by decide))

/-- The shortest decimal for a number that is not zero is not zero, because it
stands for the number. -/
theorem shortest_digits_ne {tie : Tie} {x : Finite} (hx : x.rank ≠ 0) :
    (shortest tie x).digits ≠ 0 := by
  intro hzero
  unfold shortest at hzero
  dsimp only at hzero
  cases hsearch : (List.range 17).findSome? fun k =>
      ofLength? tie x (ceiling (Binary64.units x.rank) Binary64.unitsOfOne) (k + 1) with
  | none =>
      -- The exact expansion is a product of factors that are not zero.
      rw [hsearch, Option.getD_none] at hzero
      rcases Nat.mul_eq_zero.1 hzero with hunits | hpow
      · exact units_ne_zero hx hunits
      · exact pow_ne_zero_of_five _ hpow
  | some d =>
      -- What the search found stands for the number, and zero digits stand for zero.
      simp only [hsearch, Option.getD_some] at hzero
      have hdenotes := denotes_of_search hsearch
      rw [denotes, Binary64.ofDecimal] at hdenotes
      simp only [hzero, true_or, if_true, decide_eq_true_eq, Binary64.finite.injEq] at hdenotes
      exact hx (congrArg Finite.rank hdenotes).symm

end Decimal

/-! ## Numbers -/

/-- A sign in front of a literal. -/
def Scan.signed (negative : Bool) (s : Shape) : List Char :=
  (if negative then ['-'] else []) ++ s.chars

/-- The literal of an integer without its sign: digits and nothing else. -/
def Number.intShape (i : Int) : Shape := ⟨Nat.toDigits 10 i.natAbs, [], none⟩

theorem Number.valid_intShape (i : Int) : (intShape i).Valid where
  whole_ne := Nat.toDigits_ne_nil
  whole_digits := isDigit_of_mem_digits
  whole_zero hhead := (Decimal.of_head?_toDigits hhead).2
  fraction_digits _ h := absurd h List.not_mem_nil
  exponent_digits p h := absurd h (Option.not_mem_none p)

theorem Number.spell_int (i : Int) (h : Number.InRange i) :
    (Number.int i h).spell = Scan.signed (decide (i < 0)) (intShape i) := by
  simp [Number.spell, Scan.signed, Shape.chars, Shape.fractionChars, Shape.exponentChars, intShape]

/-- Every spelled number is a literal. -/
theorem Number.exists_shape (n : Number) :
    ∃ (negative : Bool) (s : Shape), s.Valid ∧ n.spell = Scan.signed negative s := by
  cases n with
  | int i h => exact ⟨_, _, valid_intShape i, spell_int i h⟩
  | float x =>
      have hspell : ∃ d : Decimal, d.Plain ∧
          (Number.float x).spell =
            (if x.negative then ['-'] else []) ++ Decimal.Layout.file.spell d := by
        by_cases hzero : x.rank = 0
        · exact ⟨⟨0, 0⟩, fun _ => rfl, by simp [Number.spell, Binary64.Finite.spell, hzero]⟩
        · refine ⟨Decimal.shortest .even x, ?_, ?_⟩
          · exact fun hdigits => absurd hdigits (Decimal.shortest_digits_ne hzero)
          · simp [Number.spell, Binary64.Finite.spell, hzero, Decimal.Layout.file]
      rcases hspell with ⟨d, hd, hspell⟩
      rcases Decimal.exists_shape hd with ⟨s, hs, hchars⟩
      exact ⟨x.negative, s, hs, by rw [hspell, hchars, Scan.signed]⟩

namespace Scan

variable {s : Shape} {rest : List Symbol}

theorem ne_of_isDigit {c d : Char} (hc : c.isDigit = true) (hd : d.isDigit = false) : c ≠ d := by
  rintro rfl
  rw [hc] at hd
  cases hd

theorem skipBlanks_of_not_blank {c : Char} (hc : isBlank (some c) = false) (more : List Symbol) :
    skipBlanks (some c :: more) = some c :: more := by
  rw [skipBlanks, List.dropWhile_cons_of_neg (by simp [hc])]

theorem not_blank_of_isDigit {c : Char} (hc : c.isDigit = true) : isBlank (some c) = false := by
  have hspace := ne_of_isDigit hc (d := ' ') (by decide)
  have hline := ne_of_isDigit hc (d := '\n') (by decide)
  have hreturn := ne_of_isDigit hc (d := '\r') (by decide)
  have htab := ne_of_isDigit hc (d := '\t') (by decide)
  simp [isBlank, hspace, hline, hreturn, htab]

/-- A digit in front starts a number. -/
theorem value?_digit {c : Char} (hc : c.isDigit = true) (fuel depth : Nat) (more : List Symbol) :
    value? (fuel + 1) depth (some c :: more) =
      (Scan.number? false (some c :: more)).map fun found => (numberSource found.1, found.2) := by
  rw [value?, skipBlanks_of_not_blank (not_blank_of_isDigit hc)]
  split
  case h_8 => cases Scan.number? false (some c :: more) <;> rfl
  -- None of the other marks is a digit.
  all_goals
    rename_i heq
    exact absurd (Option.some.inj (List.cons.inj heq).1) (ne_of_isDigit hc (by decide))

/-- So does a minus sign. -/
theorem value?_minus (fuel depth : Nat) (more : List Symbol) :
    value? (fuel + 1) depth (some '-' :: more) =
      (Scan.number? true more).map fun found => (numberSource found.1, found.2) := by
  simp only [value?, skipBlanks_of_not_blank (show isBlank (some '-') = false by decide)]
  cases Scan.number? true more <;> rfl

/-- A signed literal is read off the front as a number. -/
theorem value?_signed (hs : s.Valid) (hrest : Ends rest) (negative : Bool) (fuel depth : Nat) :
    value? (fuel + 1) depth ((signed negative s).map some ++ rest) =
      some (numberSource (s.number? negative), rest) := by
  have hscan := Shape.number?_chars hs hrest negative
  cases negative with
  | true =>
      show value? (fuel + 1) depth (some '-' :: (s.chars.map some ++ rest)) = _
      rw [value?_minus, hscan, Option.map_some]
  | false =>
      rw [signed, if_neg Bool.false_ne_true, List.nil_append]
      -- The whole part is there and starts with a digit.
      cases hwhole : s.whole with
      | nil => exact absurd hwhole hs.whole_ne
      | cons c more =>
          have hc : c.isDigit = true := hs.whole_digits c (by rw [hwhole]; exact List.mem_cons_self)
          have hchars : s.chars.map some ++ rest =
              some c :: ((more ++ s.fractionChars ++ s.exponentChars).map some ++ rest) := by
            rw [Shape.chars, hwhole]
            rfl
          rw [hchars] at hscan ⊢
          rw [value?_digit hc, hscan, Option.map_some]

end Scan

namespace Number

/-- What is read from the characters of a number. -/
def source (n : Number) : Source := (Source.parse? (n.spell.map some)).getD .unreadable

theorem source_eq {n : Number} {negative : Bool} {s : Shape} (hs : s.Valid)
    (hspell : n.spell = Scan.signed negative s) :
    n.source = Scan.numberSource (s.number? negative) := by
  have hends : Ends [] := fun c hc => by cases hc
  have hvalue := Scan.value?_signed hs hends negative
    (2 * (n.spell.map some).length + 1) Source.maxDepth
  rw [List.append_nil, ← hspell] at hvalue
  rw [source, Source.parse?, Source.parseWithin?, hvalue]
  rfl

/-- A spelled number is read off the front. -/
theorem value?_spell (n : Number) {rest : List Symbol} (hrest : Ends rest) (fuel depth : Nat) :
    Scan.value? (fuel + 1) depth (n.spell.map some ++ rest) = some (n.source, rest) := by
  rcases n.exists_shape with ⟨negative, s, hs, hspell⟩
  rw [source_eq hs hspell, hspell, Scan.value?_signed hs hrest]

/-- The characters of a number start with a digit or a minus sign. -/
theorem exists_spell (n : Number) :
    ∃ c more, n.spell = c :: more ∧ (c = '-' ∨ c.isDigit = true) := by
  rcases n.exists_shape with ⟨negative, s, hs, hspell⟩
  cases negative with
  | true => exact ⟨'-', s.chars, hspell, .inl rfl⟩
  | false =>
      cases hwhole : s.whole with
      | nil => exact absurd hwhole hs.whole_ne
      | cons c more =>
          refine ⟨c, more ++ s.fractionChars ++ s.exponentChars, ?_, .inr ?_⟩
          · rw [hspell, Scan.signed, Shape.chars, hwhole]
            rfl
          · exact hs.whole_digits c (by rw [hwhole]; exact List.mem_cons_self)

/-- Digits alone are an integer if it fits, unless they spell a negative zero. -/
theorem literal?_digits {negative : Bool} {whole : List Char} {i : Int}
    (hi : (if negative then -(Text.digitsValue whole : Int) else Text.digitsValue whole) = i)
    (hsign : (negative && Text.digitsValue whole == 0) = false) (h : Number.InRange i) :
    Scan.literal? negative whole [] none = some (.int i h) := by
  subst hi
  unfold Scan.literal?
  have hplain : (([] : List Char).isEmpty && (none : Option Int).isNone &&
      !(negative && Text.digitsValue whole == 0)) = true := by
    rw [hsign]
    rfl
  rw [if_pos hplain, dif_pos h]

/-- The literal of an integer has that integer for its number. No integer is a
negative zero. -/
theorem number?_intShape (i : Int) (h : Number.InRange i) :
    (intShape i).number? (decide (i < 0)) = some (.int i h) := by
  refine literal?_digits ?_ ?_ h
  · rw [intShape, digitsValue_toDigits]
    simp only [decide_eq_true_eq]
    split
    · omega
    · omega
  · rw [intShape, digitsValue_toDigits, Bool.and_eq_false_iff]
    by_cases hneg : i < 0
    · exact .inr (by simpa using (by omega : i ≠ 0))
    · exact .inl (decide_eq_false hneg)

/-- Integers are read back as themselves. -/
theorem source_int (i : Int) (h : Number.InRange i) :
    (Number.int i h).source = .number (.int i h) := by
  rw [source_eq (valid_intShape i) (spell_int i h), number?_intShape, Scan.numberSource]

end Number

end ActionChain
