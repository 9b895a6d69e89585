import Mathlib.Data.List.TakeWhile
import ActionChain.Text.Blank

/-!
# What Trimming Leaves

A trimmed text, said without saying how it is found: nothing but blanks was
taken away, from the two ends only, and what is left neither starts nor ends
with one. There is one such text (`Text.trims_iff`).

## Main definitions

* `Text.Trims`: a text is what is left of another without the blanks at its
  ends.

## Theorems

* `Text.exists_append_dropWhile`: what is taken from the front, and what is left.
* `Text.trims_iff`: trimming finds the only text that is left.
-/

namespace ActionChain.Text

variable {cs inner : List Char}

/-- A text is what is left of another without the blanks at either end. -/
structure Trims (cs inner : List Char) : Prop where
  around : ∃ left right, cs = left ++ inner ++ right ∧ (∀ c ∈ left, isBlank c) ∧
    ∀ c ∈ right, isBlank c
  head : ∀ c ∈ inner.head?, ¬ isBlank c
  last : ∀ c ∈ inner.getLast?, ¬ isBlank c

theorem dropWhile_append_of_head {p : Char → Bool} {left rest : List Char}
    (hleft : ∀ c ∈ left, p c) (hhead : ∀ c ∈ rest.head?, ¬ p c) :
    (left ++ rest).dropWhile p = rest := by
  rw [List.dropWhile_append_of_pos hleft]
  cases rest with
  | nil => rfl
  | cons c rest => exact List.dropWhile_cons_of_neg (hhead c rfl)

theorem exists_append_dropWhile (p : Char → Bool) (cs : List Char) :
    ∃ left, cs = left ++ cs.dropWhile p ∧ (∀ c ∈ left, p c) ∧
      ∀ c ∈ (cs.dropWhile p).head?, ¬ p c := by
  refine ⟨cs.takeWhile p, List.takeWhile_append_dropWhile.symm,
    fun c hc => List.all_eq_true.1 List.all_takeWhile c hc, fun c hc => ?_⟩
  have hhead := List.head?_dropWhile_not p cs
  rw [Option.mem_def.1 hc] at hhead
  simpa using hhead

theorem trimBlanks_eq_of_trims (h : Trims cs inner) : trimBlanks cs = inner := by
  rcases h.around with ⟨left, right, rfl, hleft, hright⟩
  have hright' : ∀ c ∈ right.reverse, isBlank c := fun c hc => hright c (List.mem_reverse.1 hc)
  cases inner with
  | nil =>
      -- Everything is blank, so the front goes all the way.
      have hall : ∀ c ∈ left ++ [] ++ right, isBlank c := by
        intro c hc
        rw [List.append_nil] at hc
        exact (List.mem_append.1 hc).elim (hleft c) (hright c)
      have hfront : (left ++ [] ++ right).dropWhile isBlank = [] :=
        List.dropWhile_eq_nil_iff.2 hall
      rw [trimBlanks, hfront]
      rfl
  | cons c rest =>
      have hfront : (left ++ (c :: rest ++ right)).dropWhile isBlank = c :: rest ++ right :=
        dropWhile_append_of_head hleft h.head
      rw [trimBlanks, List.append_assoc, hfront, List.reverse_append,
        dropWhile_append_of_head hright', List.reverse_reverse]
      rw [List.head?_reverse]
      exact h.last

theorem trims_trimBlanks (cs : List Char) : Trims cs (trimBlanks cs) := by
  rcases exists_append_dropWhile isBlank cs with ⟨left, hcs, hleft, hhead⟩
  rcases exists_append_dropWhile isBlank (cs.dropWhile isBlank).reverse with
    ⟨right, hrest, hright, hlast⟩
  have hinner : cs.dropWhile isBlank = trimBlanks cs ++ right.reverse := by
    rw [trimBlanks, ← List.reverse_append, ← hrest, List.reverse_reverse]
  refine ⟨⟨left, right.reverse, ?_, hleft, fun c hc => hright c (List.mem_reverse.1 hc)⟩, ?_, ?_⟩
  · rw [List.append_assoc, ← hinner, ← hcs]
  · intro c hc
    refine hhead c ?_
    rw [hinner, List.head?_append, Option.mem_def.1 hc]
    rfl
  · intro c hc
    refine hlast c ?_
    rwa [trimBlanks, List.getLast?_reverse] at hc

/-- Trimming finds the only text that is left. -/
theorem trims_iff : Trims cs inner ↔ trimBlanks cs = inner :=
  ⟨trimBlanks_eq_of_trims, fun h => h ▸ trims_trimBlanks cs⟩

end ActionChain.Text
