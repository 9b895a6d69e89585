import ActionChain.Text.Utf8
import Mathlib.Data.List.Basic

/-!
# The Octets of a Text

Octets are read as a text exactly if they are the UTF-8 form of that text.

A character is spelled by one to four octets, which hold its code point in groups
of six bits behind a mark of their number. The table of these forms
(`Utf8.Spells`) says nothing about reading; it is the form that the string
library writes, and the one that is read. Since the form of a character is unique
and no form starts another, octets in which every symbol is a character are the
forms of these characters, one after the other.

## Main definitions

* `Utf8.Spells`: octets spell a code point.

## Theorems

* `Utf8.first?_eq_some_iff`: the first character is the one whose form comes first.
* `Utf8.text?_decode_eq_some_iff`: which octets are read as a text.
-/

namespace ActionChain.Utf8

/-! ## The forms of characters -/

/-- Octets spell a code point. -/
inductive Spells : List UInt8 → Nat → Prop where
  | one {a : UInt8} {v : Nat} (hv : v < 0x80) (ha : a.toNat = v) : Spells [a] v
  | two {a b : UInt8} {v : Nat} (hv : 0x80 ≤ v ∧ v < 0x800) (ha : a.toNat = 0xC0 + v / 0x40)
      (hb : b.toNat = 0x80 + v % 0x40) : Spells [a, b] v
  | three {a b c : UInt8} {v : Nat} (hv : 0x800 ≤ v ∧ v < 0x10000)
      (hvalid : v < 0xD800 ∨ 0xE000 ≤ v) (ha : a.toNat = 0xE0 + v / 0x1000)
      (hb : b.toNat = 0x80 + v / 0x40 % 0x40) (hc : c.toNat = 0x80 + v % 0x40) :
      Spells [a, b, c] v
  | four {a b c d : UInt8} {v : Nat} (hv : 0x10000 ≤ v ∧ v < 0x110000)
      (ha : a.toNat = 0xF0 + v / 0x40000) (hb : b.toNat = 0x80 + v / 0x1000 % 0x40)
      (hc : c.toNat = 0x80 + v / 0x40 % 0x40) (hd : d.toNat = 0x80 + v % 0x40) :
      Spells [a, b, c, d] v

variable {octets octets' bs rest : List UInt8} {v : Nat} {c : Char}

theorem Spells.isValidChar (h : Spells octets v) : v.isValidChar := by
  unfold Nat.isValidChar
  cases h <;> omega

theorem Spells.unique (h : Spells octets v) (h' : Spells octets' v) : octets = octets' := by
  -- The ranges of code points are apart, so both are of one form.
  cases h <;> cases h' <;> simp only [List.cons.injEq, ← UInt8.toNat_inj, and_true] <;> omega

theorem spells_utf8EncodeChar (c : Char) : Spells (String.utf8EncodeChar c) c.toNat := by
  have hvalid : c.toNat < 0xD800 ∨ (0xDFFF < c.toNat ∧ c.toNat < 0x110000) := c.valid
  have hval : c.val.toNat = c.toNat := rfl
  have hoctet {n : Nat} (hn : n < 256) : (UInt8.ofNat n).toNat = n := UInt8.toNat_ofNat_of_lt' hn
  rw [String.utf8EncodeChar, hval]
  generalize c.toNat = v at hvalid ⊢
  -- One case for each number of octets, from the smallest code points on.
  split
  · exact .one (by omega) (hoctet (by omega))
  · split
    · refine .two (by omega) ?_ ?_ <;> rw [hoctet (by omega)] <;> omega
    · split
      · refine .three (by omega) (by omega) ?_ ?_ ?_ <;> rw [hoctet (by omega)] <;> omega
      · refine .four (by omega) ?_ ?_ ?_ ?_ <;> rw [hoctet (by omega)] <;> omega

/-! ## Reading them -/

theorem isTail_iff {b : UInt8} : isTail b = true ↔ 0x80 ≤ b.toNat ∧ b.toNat ≤ 0xBF := by
  simp [isTail, UInt8.le_iff_toNat_le]

theorem accept_eq_some_iff {inOrder : Bool} {code : Nat} {rest rest' : List UInt8} {c : Char} :
    accept inOrder code rest = some (c, rest') ↔
      inOrder = true ∧ Char.ofNat code = c ∧ rest = rest' := by
  unfold accept
  split <;> simp_all

/-- A character is read from its form. -/
theorem Spells.first? (h : Spells octets v) (rest : List UInt8) :
    first? (octets ++ rest) = some (Char.ofNat v, rest) := by
  cases h with
  | @one a v hv ha =>
      simp only [List.cons_append, List.nil_append, Utf8.first?, UInt8.lt_iff_toNat_lt,
        UInt8.reduceToNat]
      rw [if_pos (by omega), accept_eq_some_iff, ha]
      exact ⟨rfl, rfl, rfl⟩
  | @two a b v hv ha hb =>
      -- The groups of bits put the code point together again.
      have hcode : a.toNat % 0x20 * 0x40 + tailBits b = v := by
        unfold tailBits
        omega
      simp only [List.cons_append, List.nil_append, Utf8.first?, UInt8.lt_iff_toNat_lt,
        UInt8.le_iff_toNat_le, UInt8.reduceToNat, Bool.and_eq_true, decide_eq_true_eq]
      rw [if_neg (by omega), if_pos (by omega), accept_eq_some_iff, hcode]
      simp [isTail_iff]
      omega
  | @three a b c v hv hvalid ha hb hc =>
      have hcode : (a.toNat % 0x10 * 0x40 + tailBits b) * 0x40 + tailBits c = v := by
        unfold tailBits
        omega
      simp only [List.cons_append, List.nil_append, Utf8.first?, UInt8.lt_iff_toNat_lt,
        UInt8.le_iff_toNat_le, UInt8.reduceToNat, Bool.and_eq_true, decide_eq_true_eq]
      rw [if_neg (by omega), if_neg (by omega), if_pos (by omega), accept_eq_some_iff, hcode]
      simp [isTail_iff]
      omega
  | @four a b c d v hv ha hb hc hd =>
      have hcode : ((a.toNat % 8 * 0x40 + tailBits b) * 0x40 + tailBits c) * 0x40 + tailBits d =
          v := by
        unfold tailBits
        omega
      simp only [List.cons_append, List.nil_append, Utf8.first?, UInt8.lt_iff_toNat_lt,
        UInt8.le_iff_toNat_le, UInt8.reduceToNat, Bool.and_eq_true, decide_eq_true_eq]
      rw [if_neg (by omega), if_neg (by omega), if_neg (by omega), if_pos (by omega),
        accept_eq_some_iff, hcode]
      simp [isTail_iff]
      omega

/-- What is read is the form of a character. -/
theorem exists_spells_of_first? (h : first? bs = some (c, rest)) :
    ∃ octets v, Spells octets v ∧ bs = octets ++ rest ∧ c = Char.ofNat v := by
  unfold first? at h
  simp only [UInt8.lt_iff_toNat_lt, UInt8.le_iff_toNat_le, UInt8.reduceToNat, Bool.and_eq_true,
    decide_eq_true_eq] at h
  -- One case for each number of octets; there are no others that are accepted.
  split at h
  · cases h
  · rename_i a bs
    split at h
    · rcases accept_eq_some_iff.1 h with ⟨-, rfl, rfl⟩
      exact ⟨[a], _, .one (by omega) rfl, rfl, rfl⟩
    split at h
    · split at h
      · rename_i b bs
        rcases accept_eq_some_iff.1 h with ⟨hb, rfl, rfl⟩
        rw [isTail_iff] at hb
        refine ⟨[a, b], _, .two ?_ ?_ ?_, rfl, rfl⟩ <;> unfold tailBits <;> omega
      · cases h
    split at h
    · split at h
      · rename_i b c bs
        rcases accept_eq_some_iff.1 h with ⟨horder, rfl, rfl⟩
        simp only [Bool.and_eq_true, Bool.or_eq_true, decide_eq_true_eq, isTail_iff] at horder
        refine ⟨[a, b, c], _, .three ?_ ?_ ?_ ?_ ?_, rfl, rfl⟩ <;> unfold tailBits at * <;> omega
      · cases h
    split at h
    · split at h
      · rename_i b c d bs
        rcases accept_eq_some_iff.1 h with ⟨horder, rfl, rfl⟩
        simp only [Bool.and_eq_true, decide_eq_true_eq, isTail_iff] at horder
        refine ⟨[a, b, c, d], _, .four ?_ ?_ ?_ ?_ ?_, rfl, rfl⟩ <;> unfold tailBits at * <;> omega
      · cases h
    · cases h

/-- The first character is the one whose form comes first. -/
theorem first?_eq_some_iff : first? bs = some (c, rest) ↔ bs = String.utf8EncodeChar c ++ rest := by
  constructor
  · intro h
    rcases exists_spells_of_first? h with ⟨octets, v, hspells, rfl, rfl⟩
    have hv : (Char.ofNat v).toNat = v := by
      rw [Char.ofNat, dif_pos hspells.isValidChar]
      rfl
    -- What was read and what the library writes spell the same code point.
    have hencode := spells_utf8EncodeChar (Char.ofNat v)
    rw [hv] at hencode
    rw [hspells.unique hencode]
  · rintro rfl
    rw [(spells_utf8EncodeChar c).first?, Char.ofNat_toNat]

/-! ## Reading a text -/

theorem decode_of_first?_eq_some (h : first? bs = some (c, rest)) :
    decode bs = some c :: decode rest := by
  cases bs with
  | nil => cases h
  | cons b bs =>
      rw [decode]
      split
      · rename_i hsome
        rw [h] at hsome
        cases hsome
        rfl
      · rename_i hnone
        rw [h] at hnone
        cases hnone

theorem decode_of_first?_eq_none {b : UInt8} (h : first? (b :: bs) = none) :
    decode (b :: bs) = none :: decode bs := by
  rw [decode]
  split
  · rename_i hsome
    rw [h] at hsome
    cases hsome
  · rfl

/-- If every octet belongs to a character, the octets are the forms of the characters. -/
theorem eq_flatMap_of_chars?_decode (bs : List UInt8) {cs : List Char}
    (h : Symbols.chars? (decode bs) = some cs) : bs = cs.flatMap String.utf8EncodeChar := by
  match bs with
  | [] =>
      rw [decode] at h
      cases h
      rfl
  | b :: bs =>
      cases hfirst : first? (b :: bs) with
      | none =>
          -- A stray octet would have left no text.
          rw [decode_of_first?_eq_none hfirst] at h
          cases h
      | some found =>
          rcases found with ⟨c, rest⟩
          rw [decode_of_first?_eq_some hfirst, Symbols.chars?, Option.map_eq_some_iff] at h
          rcases h with ⟨cs, hcs, rfl⟩
          rw [first?_eq_some_iff.1 hfirst, List.flatMap_cons, eq_flatMap_of_chars?_decode rest hcs]
termination_by bs.length
decreasing_by exact length_first?_lt hfirst

theorem decode_flatMap (cs : List Char) :
    decode (cs.flatMap String.utf8EncodeChar) = cs.map some := by
  induction cs with
  | nil => rw [List.flatMap_nil, decode, List.map_nil]
  | cons c cs ih =>
      rw [List.flatMap_cons, decode_of_first?_eq_some (first?_eq_some_iff.2 rfl), ih, List.map_cons]

theorem toList_toUTF8 (text : String) :
    text.toUTF8.data.toList = text.toList.flatMap String.utf8EncodeChar := by
  rw [String.toUTF8, ← String.utf8Encode_toList, List.utf8Encode, List.data_toByteArray]

/-- Octets are read as a text exactly if they are its UTF-8 form. -/
theorem text?_decode_eq_some_iff {text : String} :
    Symbols.text? (decode bs) = some text ↔ text.toUTF8.data.toList = bs := by
  rw [toList_toUTF8, Symbols.text?, Option.map_eq_some_iff]
  constructor
  · rintro ⟨cs, hcs, rfl⟩
    rw [String.toList_ofList, ← eq_flatMap_of_chars?_decode bs hcs]
  · rintro rfl
    exact ⟨text.toList, by rw [decode_flatMap, Symbols.chars?_map_some], String.ofList_toList⟩

end ActionChain.Utf8
