import ActionChain.Text.Case

/-!
# Lower Case Is Final

A text in lower case is left alone by the mapping to lower case.

For single characters this is a fact about the table: the images of a row are
covered by no row. It is checked row against row, on the ends of the ranges and on
parities, without running through the images (`Text.lowercaseRows_miss`). The letter
that is mapped beside the table is no image either, and both its images are unmapped.

For texts there is the sigma, the one letter whose image depends on where it stands.
Both its images are small letters, and nothing is mapped to a capital sigma, so a
second pass meets none and has nothing to decide.

## Main definitions

* `Text.Covers`: a row of the table maps a code point.
* `Text.misses`: the images of a row are not covered by another one.
* `Text.Settled`: a character that is left alone wherever it stands.

## Theorems

* `Text.lowercaseRow?_image`: what a row maps to is not mapped on.
* `Text.settled_of_mem_lowercaseChar`: what a character is mapped to is settled.
* `Text.lowercase_lowercase`: mapping to lower case twice is mapping once.
-/

namespace ActionChain.Text

/-! ## The table -/

/-- A row of the table maps a code point. -/
def Covers (row : Nat × Nat × Nat × Nat) (n : Nat) : Prop :=
  row.1 ≤ n ∧ n ≤ row.2.1 ∧ (n - row.1) % row.2.2.1 = 0

/-- Whether the images of a row lie before or behind the range of another one, or
between the code points that it maps. Only rows that map every second one leave
such gaps. -/
def misses (row other : Nat × Nat × Nat × Nat) : Bool :=
  Nat.blt (row.2.2.2 + (row.2.1 - row.1)) other.1 || Nat.blt other.2.1 row.2.2.2 ||
    (other.2.2.1 == 2 && (row.2.2.1 == 2 || row.1 == row.2.1) &&
      row.2.2.2 % 2 != other.1 % 2)

theorem not_covers_of_misses {row other : Nat × Nat × Nat × Nat} {n : Nat}
    (h : misses row other = true) (hn : Covers row n) :
    ¬ Covers other (row.2.2.2 + (n - row.1)) := by
  obtain ⟨first, last, step, target⟩ := row
  obtain ⟨first', last', step', target'⟩ := other
  obtain ⟨hfirst, hlast, hstep⟩ := hn
  rintro ⟨hfirst', hlast', hstep'⟩
  simp only [misses, Bool.or_eq_true, Bool.and_eq_true, Nat.blt_eq, beq_iff_eq, bne_iff_ne]
    at h hfirst hlast hstep hfirst' hlast' hstep'
  rcases h with (hbefore | hbehind) | ⟨⟨rfl, rfl | rfl⟩, hparity⟩ <;> omega

/-- No row covers an image of a row. -/
theorem lowercaseRows_miss :
    (lowercaseRows.all fun row => lowercaseRows.all (misses row)) = true := by
  decide +kernel

/-- No image is the letter that is mapped beside the table. -/
theorem lowercaseRows_miss_dotted :
    (lowercaseRows.all fun row => misses row (0x130, 0x130, 1, 0)) = true := by
  decide +kernel

/-- All images are code points of characters. -/
theorem lowercaseRows_valid : (lowercaseRows.all fun row =>
    Nat.blt (row.2.2.2 + (row.2.1 - row.1)) 0xD800 ||
      (Nat.blt 0xDFFF row.2.2.2 && Nat.blt (row.2.2.2 + (row.2.1 - row.1)) 0x110000)) = true := by
  decide +kernel

theorem covers_iff {row : Nat × Nat × Nat × Nat} {n : Nat} :
    Covers row n ↔
      (row.1 ≤ n && n ≤ row.2.1 && (n - row.1) % row.2.2.1 == 0) = true := by
  simp [Covers, and_assoc]

theorem lowercaseRow?_eq_some {n : Nat} {row : Nat × Nat × Nat × Nat}
    (h : lowercaseRow? n = some row) : row ∈ lowercaseRows ∧ Covers row n := by
  refine ⟨List.mem_of_find?_eq_some h, covers_iff.2 ?_⟩
  simpa using List.find?_some h

theorem lowercaseRow?_eq_none_iff {n : Nat} :
    lowercaseRow? n = none ↔ ∀ row ∈ lowercaseRows, ¬ Covers row n := by
  simp only [lowercaseRow?, List.find?_eq_none, covers_iff]

/-- What a row maps to is not mapped on. -/
theorem lowercaseRow?_image {n : Nat} {row : Nat × Nat × Nat × Nat}
    (h : lowercaseRow? n = some row) : lowercaseRow? (row.2.2.2 + (n - row.1)) = none := by
  rcases lowercaseRow?_eq_some h with ⟨hrow, hn⟩
  refine lowercaseRow?_eq_none_iff.2 fun other hother => ?_
  have hmiss := List.all_eq_true.1 (List.all_eq_true.1 lowercaseRows_miss row hrow) other hother
  exact not_covers_of_misses hmiss hn

theorem image_ne_dotted {n : Nat} {row : Nat × Nat × Nat × Nat}
    (h : lowercaseRow? n = some row) : row.2.2.2 + (n - row.1) ≠ 0x130 := by
  rcases lowercaseRow?_eq_some h with ⟨hrow, hn⟩
  intro heq
  have hmiss := List.all_eq_true.1 lowercaseRows_miss_dotted row hrow
  refine not_covers_of_misses hmiss hn ?_
  rw [heq]
  exact ⟨Nat.le_refl _, Nat.le_refl _, rfl⟩

theorem toNat_image {n : Nat} {row : Nat × Nat × Nat × Nat} (h : lowercaseRow? n = some row) :
    (Char.ofNat (row.2.2.2 + (n - row.1))).toNat = row.2.2.2 + (n - row.1) := by
  rcases lowercaseRow?_eq_some h with ⟨hrow, hfirst, hlast, -⟩
  have hvalid := List.all_eq_true.1 lowercaseRows_valid row hrow
  simp only [Bool.or_eq_true, Bool.and_eq_true, Nat.blt_eq] at hvalid
  have hchar : (row.2.2.2 + (n - row.1)).isValidChar := by
    unfold Nat.isValidChar
    omega
  rw [Char.ofNat, dif_pos hchar]
  rfl

/-! ## Characters -/

/-- A character that is left alone wherever it stands. -/
structure Settled (c : Char) : Prop where
  ne_sigma : c ≠ '\u03A3'
  lowercaseChar_eq : lowercaseChar c = [c]

instance : DecidablePred Settled := fun c =>
  decidable_of_iff (c ≠ '\u03A3' ∧ lowercaseChar c = [c])
    ⟨fun h => ⟨h.1, h.2⟩, fun h => ⟨h.1, h.2⟩⟩

theorem settled_toLower : ∀ n < 0x80, Settled (Char.ofNat n).toLower := by decide +kernel

/-- A character that no row maps is settled, but for the letter that is mapped
beside the table. -/
theorem settled_of_unmapped {c : Char} (hrow : lowercaseRow? c.toNat = none)
    (hdotted : c ≠ '\u0130') : Settled c := by
  constructor
  case ne_sigma =>
    rintro rfl
    exact absurd hrow (by decide)
  case lowercaseChar_eq =>
    unfold lowercaseChar
    by_cases hlow : c.toNat < 0x80
    · -- The capitals of this range have a row of their own.
      have hcapital := lowercaseRow?_eq_none_iff.1 hrow (0x41, 0x5A, 1, 0x61) (by decide)
      simp only [Covers, Nat.mod_one, and_true] at hcapital
      rw [if_pos hlow]
      refine congrArg (fun d => [d]) (dif_neg ?_)
      rintro ⟨hfirst, hlast⟩
      exact hcapital ⟨hfirst, hlast⟩
    · rw [if_neg hlow, if_neg hdotted, hrow]

/-- What a character is mapped to is settled. -/
theorem settled_of_mem_lowercaseChar {c d : Char} (h : d ∈ lowercaseChar c) : Settled d := by
  unfold lowercaseChar at h
  split at h
  · rename_i hlow
    rw [List.mem_singleton.1 h]
    simpa using settled_toLower c.toNat hlow
  · split at h
    · -- The letter beside the table becomes a plain one and a dot.
      rcases List.mem_cons.1 h with rfl | h
      · decide +kernel
      · rw [List.mem_singleton.1 h]
        decide +kernel
    · rename_i hdotted
      split at h
      · rename_i first last step target hrow
        rw [List.mem_singleton.1 h]
        have himage := toNat_image hrow
        refine settled_of_unmapped ?_ fun hd => image_ne_dotted hrow ?_
        · rw [himage]
          exact lowercaseRow?_image hrow
        · rw [← himage, hd]
          rfl
      · rename_i hrow
        rw [List.mem_singleton.1 h]
        exact settled_of_unmapped hrow hdotted

/-! ## Texts -/

/-- Whatever stands around them, characters are mapped to settled ones. -/
theorem settled_of_mem_lowercaseAfter {before cs : List Char} {d : Char}
    (h : d ∈ lowercaseAfter before cs) : Settled d := by
  induction cs generalizing before with
  | nil => exact absurd h List.not_mem_nil
  | cons c rest ih =>
      rw [lowercaseAfter] at h
      rcases List.mem_append.1 h with hhead | hrest
      · split at hhead
        · -- A sigma becomes one of the two small ones.
          rw [List.mem_singleton.1 hhead]
          split <;> decide +kernel
        · exact settled_of_mem_lowercaseChar hhead
      · exact ih hrest

/-- Settled characters are left alone, whatever stands around them. -/
theorem lowercaseAfter_of_settled {before cs : List Char} (h : ∀ c ∈ cs, Settled c) :
    lowercaseAfter before cs = cs := by
  induction cs generalizing before with
  | nil => rfl
  | cons c rest ih =>
      rcases List.forall_mem_cons.1 h with ⟨hc, hrest⟩
      rw [lowercaseAfter, if_neg hc.ne_sigma, hc.lowercaseChar_eq, ih hrest]
      rfl

/-- Mapping to lower case twice is mapping once. -/
@[simp] theorem lowercase_lowercase (s : String) : lowercase (lowercase s) = lowercase s := by
  have hsettled : ∀ c ∈ (lowercase s).toList, Settled c := fun c hc => by
    rw [lowercase, String.toList_ofList] at hc
    exact settled_of_mem_lowercaseAfter hc
  rw [lowercase, lowercaseAfter_of_settled hsettled, String.ofList_toList]

end ActionChain.Text
