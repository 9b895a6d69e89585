import ActionChain.Proofs.Json.Spelling
import ActionChain.Time.Instant

/-!
# Reading Back an Instant

The instant that the text of an instant names is that instant.

Each part of the text is a number of known width, padded with zeros. A reader
that takes digits up to a width stops at the width, or at the first character
that is no digit, so what it needs of the rest is at most that (`Stops`). Only
a year outside the four digits has no width, and behind it stands a hyphen.

A fraction is left out or takes three, six or nine digits, and the power of ten
it is short of nanoseconds is the one it was divided by. Second 60 is read as
second 59 with the nanoseconds of a leap second, which is what it was written
for. The letter at the end is the offset zero, so nothing moves.

## Main definitions

* `Instant.Stops`: characters that do not go on with a digit.

## Theorems

* `Instant.number?_padded`: a padded number is read off the front.
* `Instant.year?_spellYear`, `Instant.fraction?_spellFraction`: so are years
  and fractions.
* `Instant.parse?_toText`: an instant is read back from its text.
-/

namespace ActionChain

namespace Instant

/-! ## Digits -/

/-- Characters that do not go on with a digit. -/
def Stops (cs : List Char) : Prop := ∀ c ∈ cs.head?, c.isDigit = false

theorem stops_cons {c : Char} (h : c.isDigit = false) (cs : List Char) : Stops (c :: cs) := by
  intro d hd
  rw [List.head?_cons, Option.mem_some_iff] at hd
  exact hd ▸ h

/-- Digits are taken up to the width, or up to where they stop. -/
theorem takeDigits_append {width : Nat} {ds rest : List Char}
    (hds : ∀ c ∈ ds, c.isDigit = true) (hwidth : ds.length ≤ width)
    (hstop : ds.length = width ∨ Stops rest) : takeDigits width (ds ++ rest) = (ds, rest) := by
  induction ds generalizing width with
  | nil =>
      cases width with
      | zero => cases rest <;> rfl
      | succ width =>
          cases rest with
          | nil => rfl
          | cons c more =>
              have hc := hstop.resolve_left (Nat.succ_ne_zero width).symm c rfl
              rw [List.nil_append, takeDigits, hc]
              rfl
  | cons c ds ih =>
      cases width with
      | zero => exact absurd hwidth (Nat.not_succ_le_zero _)
      | succ width =>
          have hrest := ih (fun d hd => hds d (List.mem_cons_of_mem c hd))
            (Nat.le_of_succ_le_succ hwidth) (hstop.imp_left Nat.succ.inj)
          rw [List.cons_append, takeDigits, hds c List.mem_cons_self, hrest]
          rfl

theorem number?_append {width : Nat} {ds rest : List Char} (hne : ds ≠ [])
    (hds : ∀ c ∈ ds, c.isDigit = true) (hwidth : ds.length ≤ width)
    (hstop : ds.length = width ∨ Stops rest) :
    number? width (ds ++ rest) = some (Text.digitsValue ds, rest) := by
  rw [number?, takeDigits_append hds hwidth hstop]
  cases ds with
  | nil => exact absurd rfl hne
  | cons c more => rfl

/-! ## Padded numbers -/

variable {width n : Nat}

theorem isDigit_of_mem_padded : ∀ c ∈ padded width n, c.isDigit = true := by
  intro c hc
  rcases List.mem_append.1 hc with hc | hc
  · exact Decimal.isDigit_of_mem_zeros _ c hc
  · exact isDigit_of_mem_digits c hc

theorem padded_ne_nil : padded width n ≠ [] :=
  fun h => Nat.toDigits_ne_nil (List.append_eq_nil_iff.1 h).2

theorem length_padded (hwidth : 0 < width) (hn : n < Nat.pow 10 width) :
    (padded width n).length = width := by
  have hdigits := (Nat.length_toDigits_le_iff (b := 10) (by decide) hwidth).2 hn
  rw [padded, List.length_append, List.length_replicate]
  omega

/-- Zeros in front do not count. -/
theorem digitsValue_padded : Text.digitsValue (padded width n) = n := by
  have hzeros : ∀ k, Text.appendDigits 0 (List.replicate k '0') = 0 := by
    intro k
    induction k with
    | zero => rfl
    | succ k ih => rwa [List.replicate_succ, Text.appendDigits_cons]
  have hfold : Text.digitsValue (padded width n) = Text.appendDigits
      (Text.appendDigits 0 (List.replicate (width - (Nat.toDigits 10 n).length) '0'))
      (Nat.toDigits 10 n) := List.foldl_append
  rw [hfold, hzeros]
  exact digitsValue_toDigits n

/-- A padded number of the full width is read off the front. -/
theorem number?_padded (hwidth : 0 < width) (hn : n < Nat.pow 10 width) (rest : List Char) :
    number? width (padded width n ++ rest) = some (n, rest) := by
  have hlength := length_padded hwidth hn
  rw [number?_append padded_ne_nil isDigit_of_mem_padded (Nat.le_of_eq hlength) (.inl hlength),
    digitsValue_padded]

theorem not_blank_of_isDigit {c : Char} (h : c.isDigit = true) : Text.isBlank c = false := by
  have hrange := toNat_of_isDigit h
  simp only [Text.isBlank, Text.blankRanges, List.any_cons, List.any_nil, Bool.or_false,
    Bool.or_eq_false_iff, Bool.and_eq_false_iff, decide_eq_false_iff_not]
  omega

/-- A padded number starts with a digit. -/
theorem exists_padded (width n : Nat) :
    ∃ c more, padded width n = c :: more ∧ c.isDigit = true := by
  cases h : padded width n with
  | nil => exact absurd h padded_ne_nil
  | cons c more => exact ⟨c, more, rfl, isDigit_of_mem_padded c (h ▸ List.mem_cons_self)⟩

theorem skipBlanks_of_not_blank {c : Char} (h : Text.isBlank c = false) (rest : List Char) :
    skipBlanks (c :: rest) = c :: rest := by
  rw [skipBlanks, List.dropWhile_cons_of_neg (by rw [h]; exact Bool.false_ne_true)]

theorem skipBlanks_padded (width n : Nat) (rest : List Char) :
    skipBlanks (padded width n ++ rest) = padded width n ++ rest := by
  rcases exists_padded width n with ⟨c, more, hpadded, hc⟩
  rw [hpadded, List.cons_append, skipBlanks_of_not_blank (not_blank_of_isDigit hc)]

theorem short?_padded (hn : n < 100) (rest : List Char) :
    short? (padded 2 n ++ rest) = some (n, rest) := by
  rw [short?, skipBlanks_padded]
  exact number?_padded (by decide) hn rest

theorem expect?_cons {c : Char} (h : Text.isBlank c = false) (rest : List Char) :
    expect? c (c :: rest) = some rest := by
  rw [expect?, skipBlanks_of_not_blank h]
  exact if_pos rfl

/-! ## Years and fractions -/

/-- A year is read off the front, whether or not it has a sign. -/
theorem year?_spellYear (year : Int) {rest : List Char} (hrest : Stops rest) :
    year? (spellYear year ++ rest) = some (year, rest) := by
  have hsigned : ∀ n, number? (padded 4 n ++ rest).length (padded 4 n ++ rest) = some (n, rest) := by
    intro n
    rw [number?_append padded_ne_nil isDigit_of_mem_padded
      (by rw [List.length_append]; exact Nat.le_add_right _ _) (.inr hrest), digitsValue_padded]
  unfold spellYear
  split
  case isTrue hplain =>
    rcases exists_padded 4 year.toNat with ⟨c, more, hpadded, hc⟩
    have hnumber : number? 4 (padded 4 year.toNat ++ rest) = some (year.toNat, rest) :=
      number?_padded (by decide) (show year.toNat < 10000 by omega) rest
    rw [year?, skipBlanks_padded]
    rw [hpadded, List.cons_append] at hnumber ⊢
    -- A digit is neither of the signs.
    split
    · rename_i heq
      exact absurd (List.cons.inj heq).1 (Scan.ne_of_isDigit hc (by decide))
    · rename_i heq
      exact absurd (List.cons.inj heq).1 (Scan.ne_of_isDigit hc (by decide))
    · simp only [hnumber, Option.map_some, Int.toNat_of_nonneg hplain.1]
  case isFalse hplain =>
    by_cases hneg : year < 0
    · rw [if_pos hneg, List.cons_append, year?, skipBlanks_of_not_blank (by decide)]
      simp only [hsigned, Option.map_some]
      rw [show -(year.natAbs : Int) = year by omega]
    · rw [if_neg hneg, List.cons_append, year?, skipBlanks_of_not_blank (by decide)]
      simp only [hsigned, Option.map_some]
      rw [show (year.natAbs : Int) = year by omega]

/-- The digits of a fraction stand for as many nanoseconds as they are short of
nine places. -/
theorem fraction?_digits {places : Nat} (hplaces : 0 < places) (hle : places ≤ 9)
    (hn : n < Nat.pow 10 places) {rest : List Char} (hrest : Stops rest) :
    fraction? ('.' :: (padded places n ++ rest)) = some (n * Nat.pow 10 (9 - places), rest) := by
  have hlength := length_padded hplaces hn
  have htake : takeDigits 9 (padded places n ++ rest) = (padded places n, rest) :=
    takeDigits_append isDigit_of_mem_padded (by rw [hlength]; exact hle) (.inr hrest)
  have hdrop : rest.dropWhile Char.isDigit = rest := by
    cases rest with
    | nil => rfl
    | cons c more =>
        exact List.dropWhile_cons_of_neg (by rw [hrest c rfl]; exact Bool.false_ne_true)
  rw [fraction?, htake]
  rcases exists_padded places n with ⟨c, more, hpadded, -⟩
  have hvalue : Text.digitsValue (padded places n) = n := digitsValue_padded
  rw [hpadded] at hvalue hlength ⊢
  simp only [hvalue, hlength, hdrop]

/-- A fraction is read off the front of what is no fraction itself. -/
theorem fraction?_spellFraction (hn : n < 1000000000) {c : Char} (hdigit : c.isDigit = false)
    (hpoint : c ≠ '.') (rest : List Char) :
    fraction? (spellFraction n ++ c :: rest) = some (n, c :: rest) := by
  have hrest := stops_cons hdigit rest
  unfold spellFraction
  by_cases hzero : n = 0
  · -- Nothing was written.
    rw [if_pos hzero, hzero, List.nil_append, fraction?]
    exact fun more h => hpoint (List.cons.inj h).1
  rw [if_neg hzero]
  by_cases hmilli : n % 1000000 = 0
  · have hplaces : n / 1000000 < 1000 := by omega
    rw [if_pos hmilli, List.cons_append, fraction?_digits (by decide) (by decide) hplaces hrest,
      show Nat.pow 10 (9 - 3) = 1000000 from rfl, Nat.div_mul_cancel (by omega)]
  rw [if_neg hmilli]
  by_cases hmicro : n % 1000 = 0
  · have hplaces : n / 1000 < 1000000 := by omega
    rw [if_pos hmicro, List.cons_append, fraction?_digits (by decide) (by decide) hplaces hrest,
      show Nat.pow 10 (9 - 6) = 1000 from rfl, Nat.div_mul_cancel (by omega)]
  · rw [if_neg hmicro, List.cons_append, fraction?_digits (by decide) (by decide) hn hrest,
      show Nat.pow 10 (9 - 9) = 1 from rfl, Nat.mul_one]

/-! ## Instants -/

theorem month_lt (d : Date) : d.month < 100 := by
  have hday := d.valid.2.2
  refine Nat.lt_of_not_le fun hlarge => ?_
  have hlength : Date.monthLength d.year d.month = 0 := by
    unfold Date.monthLength
    split <;> first | rfl | omega
  omega

theorem day_lt (d : Date) : d.day < 100 := by
  have hday := d.valid.2.2.2
  have hlength : Date.monthLength d.year d.month ≤ 31 := by
    unfold Date.monthLength
    split <;> first | decide | split <;> decide
  omega

/-- Without an offset a local time is the time. -/
theorem fromLocal?_zero (t : Instant) : fromLocal? t.date t.second t.nanosecond 0 = some t := by
  have hsecond := t.valid.1
  rw [fromLocal?, Int.sub_zero, if_neg (by omega), if_neg (by omega), Int.toNat_natCast]
  exact make?_fields t

/-- An instant is read back from its characters, part by part. -/
theorem read?_spell (t : Instant) : read? t.spell = some t := by
  rcases t.valid with ⟨hsecond, hnanosecond, hleap⟩
  have hhyphen : Text.isBlank '-' = false := by decide
  have hcolon : Text.isBlank ':' = false := by decide
  have hletter : Text.isBlank 'Z' = false := by decide
  have hspell : t.spell = spellYear t.date.year ++ '-' :: (padded 2 t.date.month ++
      '-' :: (padded 2 t.date.day ++ 'T' :: (padded 2 (t.second / 3600) ++
      ':' :: (padded 2 (t.second / 60 % 60) ++
      ':' :: (padded 2 (t.second % 60 + t.nanosecond / 1000000000) ++
      (spellFraction (t.nanosecond % 1000000000) ++ ['Z'])))))) := by
    simp only [spell, List.append_assoc, List.cons_append]
  rw [hspell, read?]
  refine Option.bind_eq_some_iff.2 ⟨_, year?_spellYear _ (stops_cons (by decide) _), ?_⟩
  refine Option.bind_eq_some_iff.2 ⟨_, expect?_cons hhyphen _, ?_⟩
  refine Option.bind_eq_some_iff.2 ⟨_, short?_padded (month_lt t.date) _, ?_⟩
  refine Option.bind_eq_some_iff.2 ⟨_, expect?_cons hhyphen _, ?_⟩
  refine Option.bind_eq_some_iff.2 ⟨_, short?_padded (day_lt t.date) _, ?_⟩
  refine (if_pos (.inl rfl)).trans ?_
  refine Option.bind_eq_some_iff.2 ⟨_, rfl, ?_⟩
  refine Option.bind_eq_some_iff.2 ⟨_, short?_padded (by omega) _, ?_⟩
  refine Option.bind_eq_some_iff.2 ⟨_, expect?_cons hcolon _, ?_⟩
  refine Option.bind_eq_some_iff.2 ⟨_, short?_padded (by omega) _, ?_⟩
  refine Option.bind_eq_some_iff.2 ⟨_, expect?_cons hcolon _, ?_⟩
  refine Option.bind_eq_some_iff.2 ⟨_, short?_padded (by omega) _, ?_⟩
  refine Option.bind_eq_some_iff.2 ⟨_, fraction?_spellFraction (Nat.mod_lt _ (by decide))
    (by decide) (by decide) [], ?_⟩
  refine Option.bind_eq_some_iff.2 ⟨(0, []), ?_, ?_⟩
  · exact congrArg offset? (skipBlanks_of_not_blank hletter [])
  refine Option.bind_eq_some_iff.2 ⟨_, Date.make?_fields t.date, ?_⟩
  have hvalid : ¬ (23 < t.second / 3600 ∨ 59 < t.second / 60 % 60 ∨
      60 < t.second % 60 + t.nanosecond / 1000000000 ∨ (!(skipBlanks []).isEmpty) = true) := by
    simp only [skipBlanks, List.dropWhile_nil, List.isEmpty_nil, Bool.not_true,
      Bool.false_eq_true, or_false]
    omega
  refine (if_neg hvalid).trans ?_
  -- The second shown is 60 exactly for a leap second, which it is taken back to.
  have hshows : (t.second % 60 + t.nanosecond / 1000000000) / 60 = t.nanosecond / 1000000000 := by
    omega
  have htime : t.second / 3600 * 3600 + t.second / 60 % 60 * 60 +
      (t.second % 60 + t.nanosecond / 1000000000 - t.nanosecond / 1000000000) = t.second := by
    omega
  simp only [hshows, htime, Nat.mod_add_div']
  exact fromLocal?_zero t

/-- The instant that the text of an instant names is that instant. -/
theorem parse?_toText (t : Instant) : parse? t.toText = some t := by
  rw [parse?, toText, String.toList_ofList, read?_spell]

end Instant

end ActionChain
