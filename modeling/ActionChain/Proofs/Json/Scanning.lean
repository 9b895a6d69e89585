import ActionChain.Json.Printer
import ActionChain.Json.Source

/-!
# Scanning What Was Written

Texts and number literals, read off the front of a longer sequence of symbols.

A text that was escaped ends at its own closing quote and at no quote before
it, because every quote inside stands behind a backslash. What is scanned are
pieces, one for every character, and they spell the characters again
(`text?_escape`, `chars?_ofChar`).

A literal has no closing mark. It ends where the next symbol cannot extend it,
so what follows has to be known a little: `Ends` asks for its first symbol
only. A literal that consists of the parts the grammar allows is then scanned
to its end, whatever else follows (`number?_chars`), and in particular its
number does not depend on the rest.

## Main definitions

* `Piece.ofChar`: how a character of a written text is scanned.
* `Scan.Ends`: symbols that cannot extend a literal.
* `Scan.Shape`: the parts of a literal without its sign.

## Theorems

* `Scan.text?_escape`, `Piece.chars?_ofChar`: texts.
* `Scan.Shape.number?_chars`: literals.
-/

namespace ActionChain

/-! ## Texts -/

/-- How a character of a written text is scanned. -/
def Piece.ofChar (c : Char) : Piece :=
  if c = '"' ∨ c = '\\' ∨ c = '\n' ∨ c = '\r' ∨ c = '\t' ∨ c = '\x08' ∨ c = '\x0c' then .escape c
  else if c.toNat < 0x20 then .unit c.toNat
  else .char c

/-- A unit that is no half of a pair spells a character, whatever comes next. -/
theorem Piece.chars?_unit {u : Nat} (hlead : isLead u = false) (htrail : isTrail u = false)
    (ps : List Piece) : chars? (.unit u :: ps) = (chars? ps).map (Char.ofNat u :: ·) := by
  cases ps with
  | nil => simp [chars?, hlead, htrail]
  | cons p more => cases p <;> simp [chars?, hlead, htrail]

/-- The pieces of a written text spell it. -/
theorem Piece.chars?_ofChar (cs : List Char) : chars? (cs.map ofChar) = some cs := by
  induction cs with
  | nil => rfl
  | cons c rest ih =>
      rw [List.map_cons, ofChar]
      by_cases hspecial : c = '"' ∨ c = '\\' ∨ c = '\n' ∨ c = '\r' ∨ c = '\t' ∨ c = '\x08' ∨
          c = '\x0c'
      · rw [if_pos hspecial, chars?, ih, Option.map_some]
      · rw [if_neg hspecial]
        -- A character below the blank is far from the halves of pairs.
        by_cases hlow : c.toNat < 0x20
        · have hlead : isLead c.toNat = false := by
            rw [isLead, Bool.and_eq_false_iff]
            exact .inl (decide_eq_false (by omega))
          have htrail : isTrail c.toNat = false := by
            rw [isTrail, Bool.and_eq_false_iff]
            exact .inl (decide_eq_false (by omega))
          rw [if_pos hlow, chars?_unit hlead htrail, ih, Option.map_some, Char.ofNat_toNat]
        · rw [if_neg hlow, chars?, ih, Option.map_some]

namespace Scan

theorem hexUnit?_low : ∀ n < 0x20,
    hexUnit? '0' '0' (hexDigit (n / 16)) (hexDigit (n % 16)) = some n := by
  decide

theorem text?_backslash {c value : Char} (hc : c ≠ 'u') (hvalue : escapeValue? c = some value)
    (rest : List Symbol) :
    text? (some '\\' :: some c :: rest) =
      (text? rest).map fun found => (.escape value :: found.1, found.2) := by
  simp [text?, hc, hvalue]
  cases text? rest <;> rfl

theorem text?_unit {a b c d : Char} {u : Nat} (hu : hexUnit? a b c d = some u)
    (rest : List Symbol) :
    text? (some '\\' :: some 'u' :: some a :: some b :: some c :: some d :: rest) =
      (text? rest).map fun found => (.unit u :: found.1, found.2) := by
  simp [text?, hu]
  cases text? rest <;> rfl

theorem text?_char {c : Char} (hquote : c ≠ '"') (hbackslash : c ≠ '\\') (hlow : ¬ c.toNat < 0x20)
    (rest : List Symbol) :
    text? (some c :: rest) = (text? rest).map fun found => (.char c :: found.1, found.2) := by
  simp [text?, hbackslash, hlow]
  cases text? rest <;> rfl

/-- An escaped character is scanned as one piece. -/
theorem text?_escapeChar (c : Char) (rest : List Symbol) :
    text? ((Json.escapeChar c).map some ++ rest) =
      (text? rest).map fun found => (Piece.ofChar c :: found.1, found.2) := by
  by_cases hquote : c = '"'
  · subst hquote
    exact text?_backslash (by decide) rfl rest
  by_cases hbackslash : c = '\\'
  · subst hbackslash
    exact text?_backslash (by decide) rfl rest
  by_cases hline : c = '\n'
  · subst hline
    exact text?_backslash (by decide) rfl rest
  by_cases hreturn : c = '\r'
  · subst hreturn
    exact text?_backslash (by decide) rfl rest
  by_cases htab : c = '\t'
  · subst htab
    exact text?_backslash (by decide) rfl rest
  by_cases hback : c = '\x08'
  · subst hback
    exact text?_backslash (by decide) rfl rest
  by_cases hfeed : c = '\x0c'
  · subst hfeed
    exact text?_backslash (by decide) rfl rest
  -- No letter stands for what is left, so it is written as a unit or as it is.
  rw [Json.escapeChar, if_neg hquote, if_neg hbackslash, if_neg hline, if_neg hreturn, if_neg htab,
    if_neg hback, if_neg hfeed]
  have hspecial : ¬ (c = '"' ∨ c = '\\' ∨ c = '\n' ∨ c = '\r' ∨ c = '\t' ∨ c = '\x08' ∨
      c = '\x0c') := by
    simp only [hquote, hbackslash, hline, hreturn, htab, hback, hfeed, or_self, not_false_eq_true]
  rw [Piece.ofChar, if_neg hspecial]
  by_cases hlow : c.toNat < 0x20
  · rw [if_pos hlow, if_pos hlow]
    exact text?_unit (hexUnit?_low c.toNat hlow) rest
  · rw [if_neg hlow, if_neg hlow]
    exact text?_char hquote hbackslash hlow rest

/-- A written text is scanned up to its own closing quote. -/
theorem text?_escape (cs : List Char) (rest : List Symbol) :
    text? ((Json.escape cs).map some ++ some '"' :: rest) = some (cs.map Piece.ofChar, rest) := by
  induction cs with
  | nil => rfl
  | cons c more ih =>
      rw [Json.escape, List.flatMap_cons, List.map_append, List.append_assoc, text?_escapeChar,
        ← Json.escape, ih]
      rfl

/-! ## Literals -/

/-- Symbols that cannot extend a number literal. -/
def Ends (rest : List Symbol) : Prop :=
  ∀ c : Char, rest.head? = some (some c) → c.isDigit = false ∧ c ≠ '.' ∧ c ≠ 'e' ∧ c ≠ 'E'

/-- Symbols that do not start with a digit. -/
def NoDigit (rest : List Symbol) : Prop :=
  ∀ c : Char, rest.head? = some (some c) → c.isDigit = false

theorem Ends.noDigit {rest : List Symbol} (h : Ends rest) : NoDigit rest :=
  fun c hc => (h c hc).1

theorem noDigit_cons {c : Char} (hc : c.isDigit = false) (rest : List Symbol) :
    NoDigit (some c :: rest) := by
  intro d hd
  rw [List.head?_cons, Option.some.injEq, Option.some.injEq] at hd
  rw [← hd]
  exact hc

/-- Digits are taken up to the first symbol that is none. -/
theorem digits_append {ds : List Char} (hds : ∀ c ∈ ds, c.isDigit = true) {rest : List Symbol}
    (hrest : NoDigit rest) : digits (ds.map some ++ rest) = (ds, rest) := by
  induction ds with
  | nil =>
      cases rest with
      | nil => rfl
      | cons s more =>
          cases s with
          | none => rfl
          | some c => simp [digits, hrest c rfl]
  | cons d more ih =>
      have hmore := ih fun c hc => hds c (List.mem_cons_of_mem _ hc)
      simp [digits, hds d List.mem_cons_self, hmore]

/-- The parts of a literal without its sign. -/
structure Shape where
  whole : List Char
  /-- The digits behind the point, none without a point. -/
  fraction : List Char
  /-- Whether the exponent is negative, and its digits. -/
  exponent : Option (Bool × List Char)

namespace Shape

/-- The point and the digits behind it. -/
def fractionChars (s : Shape) : List Char := if s.fraction = [] then [] else '.' :: s.fraction

/-- The mark of the exponent, its sign and its digits. -/
def exponentChars (s : Shape) : List Char :=
  match s.exponent with
  | none => []
  | some (negative, ds) => 'e' :: (if negative then '-' else '+') :: ds

/-- The characters of a literal without its sign. -/
def chars (s : Shape) : List Char := s.whole ++ s.fractionChars ++ s.exponentChars

/-- What the grammar asks of the parts. -/
structure Valid (s : Shape) : Prop where
  whole_ne : s.whole ≠ []
  whole_digits : ∀ c ∈ s.whole, c.isDigit = true
  /-- A zero starts no longer whole part. -/
  whole_zero : s.whole.head? = some '0' → s.whole.length = 1
  fraction_digits : ∀ c ∈ s.fraction, c.isDigit = true
  exponent_digits : ∀ p ∈ s.exponent, p.2 ≠ [] ∧ ∀ c ∈ p.2, c.isDigit = true

/-- The number that the exponent spells. -/
def power (s : Shape) : Option Int :=
  s.exponent.map fun p => if p.1 then -(Text.digitsValue p.2 : Int) else Text.digitsValue p.2

/-- The number of the literal under a sign, if it has one. -/
def number? (negative : Bool) (s : Shape) : Option Number :=
  literal? negative s.whole s.fraction s.power

variable {s : Shape} {rest : List Symbol}

theorem exponent?_exponentChars (hs : s.Valid) (hrest : Ends rest) :
    exponent? (s.exponentChars.map some ++ rest) = some (s.power, rest) := by
  unfold exponentChars power
  cases hexp : s.exponent with
  | none =>
      cases rest with
      | nil => rfl
      | cons symbol more =>
          cases symbol with
          | none => rfl
          | some c =>
              have hc := hrest c rfl
              simp [exponent?, hc.2.2.1, hc.2.2.2]
  | some p =>
      rcases p with ⟨negative, ds⟩
      rcases hs.exponent_digits (negative, ds) hexp with ⟨hne, hds⟩
      have hdigits := digits_append hds hrest.noDigit
      cases ds with
      | nil => exact absurd rfl hne
      | cons d more =>
          rw [List.map_cons, List.cons_append] at hdigits
          cases negative <;> simp [exponent?, hdigits]

theorem ends_exponentChars (hrest : Ends rest) :
    NoDigit (s.exponentChars.map some ++ rest) ∧
      (s.exponentChars.map some ++ rest).head? ≠ some (some '.') := by
  unfold exponentChars
  cases s.exponent with
  | none => exact ⟨hrest.noDigit, fun h => (hrest '.' h).2.1 rfl⟩
  | some p => exact ⟨noDigit_cons (by decide) _, by simp⟩

theorem fraction?_fractionChars (hs : s.Valid) {rest : List Symbol} (hrest : NoDigit rest)
    (hpoint : rest.head? ≠ some (some '.')) :
    fraction? (s.fractionChars.map some ++ rest) = some (s.fraction, rest) := by
  unfold fractionChars
  by_cases hfraction : s.fraction = []
  · -- Nothing is written, and what follows must not look like a point.
    rw [if_pos hfraction, hfraction, List.map_nil, List.nil_append]
    unfold fraction?
    split
    · exact absurd rfl hpoint
    · rfl
  · have hdigits := digits_append hs.fraction_digits hrest
    rw [if_neg hfraction, List.map_cons, List.cons_append]
    simp only [fraction?, hdigits]
    cases hf : s.fraction with
    | nil => exact absurd hf hfraction
    | cons d more => rfl

/-- A literal made of valid parts is scanned to its end. -/
theorem number?_chars (hs : s.Valid) (hrest : Ends rest) (negative : Bool) :
    Scan.number? negative (s.chars.map some ++ rest) = some (s.number? negative, rest) := by
  -- From the back: each part is scanned up to the next one, which does not extend it.
  have hexp := exponent?_exponentChars hs hrest
  have hends := ends_exponentChars (s := s) hrest
  have hfrac := fraction?_fractionChars hs hends.1 hends.2
  have hstart : NoDigit (s.fractionChars.map some ++ (s.exponentChars.map some ++ rest)) := by
    unfold fractionChars
    by_cases hfraction : s.fraction = []
    · rw [if_pos hfraction]
      exact hends.1
    · rw [if_neg hfraction]
      exact noDigit_cons (by decide) _
  have hwhole := digits_append hs.whole_digits hstart
  have hzero : (s.whole.isEmpty || (s.whole.head? == some '0' && s.whole.length != 1)) = false := by
    rw [Bool.or_eq_false_iff, List.isEmpty_eq_false_iff, Bool.and_eq_false_iff]
    refine ⟨hs.whole_ne, ?_⟩
    by_cases hhead : s.whole.head? = some '0'
    · exact .inr (by simp [hs.whole_zero hhead])
    · exact .inl (by simpa using hhead)
  rw [chars, List.map_append, List.map_append, List.append_assoc, List.append_assoc, Scan.number?,
    hwhole]
  simp only [hzero, Bool.false_eq_true, if_false, hfrac, hexp, Option.bind_eq_bind,
    Option.bind_some]
  rfl

end Shape

end Scan

end ActionChain
