import ActionChain.Chain.Template

/-!
# There Is One Way to Read a Template

Which pieces a template has, said without saying how they are found.

A piece stands in front of the rest of a text if its spelling ends where the
rest begins. For a bracket that is at the first character that closes it; all
arguments are meant only where no bracket is opened and closed behind them; and
a dollar sign stands for itself only in front of what is no placeholder. A
reading is a list of pieces each of which stands in front of the others, and
what it reads is their spelling. Splitting a template finds a reading, and there
is no other (`Template.reads_iff`).

Nothing here knows of subjects, arguments or variables.

## Main definitions

* `Template.Placeholder.EndsBefore`: a placeholder ends where a text begins.
* `Template.Placeholder.Heads`: a text starts with a placeholder.
* `Template.Reads`: a text has a reading.

## Theorems

* `Template.placeholder?_eq_some_iff`: the placeholder that a text starts with.
* `Template.split_spelled_append`: a piece that fits is split off.
* `Template.reads_iff`: the pieces of a template are its only reading.
-/

namespace ActionChain.Template

/-- The spelling of a placeholder ends where a text begins. -/
def Placeholder.EndsBefore : Placeholder → List Char → Prop
  | .user, _ => True
  | .args, rest => ∀ inner tail, rest ≠ '[' :: (inner ++ ']' :: tail)
  | .arg index, _ => ']' ∉ index
  | .keyed _ key, _ => ']' ∉ key

/-- A text starts with a placeholder, behind which another text stands. -/
def Placeholder.Heads (p : Placeholder) (cs rest : List Char) : Prop :=
  cs = p.spelled ++ rest ∧ p.EndsBefore rest

/-- A piece stands in front of a text. -/
def Piece.Fits : Piece → List Char → Prop
  | .literal c, rest => c = '$' → ∀ p tail, ¬ Placeholder.Heads p rest tail
  | .placeholder p, rest => p.EndsBefore rest

/-- A text is read as a list of pieces. -/
inductive Reads : List Char → List Piece → Prop where
  | nil : Reads [] []
  | cons {piece : Piece} {rest : List Char} {pieces : List Piece} (hfits : piece.Fits rest)
      (h : Reads rest pieces) : Reads (piece.spelled ++ rest) (piece :: pieces)

/-! ## Brackets -/

theorem takeWhile_append_of_not_mem {c : Char} {inner : List Char} (h : c ∉ inner)
    (rest : List Char) : (inner ++ c :: rest).takeWhile (· ≠ c) = inner := by
  rw [List.takeWhile_append_of_pos, List.takeWhile_cons_of_neg (by simp), List.append_nil]
  intro d hd
  have hne : d ≠ c := fun heq => h (heq ▸ hd)
  simpa using hne

theorem bracketed?_closed {inner : List Char} (h : ']' ∉ inner) (rest : List Char) :
    bracketed? ('[' :: (inner ++ ']' :: rest)) = some inner := by
  have hmem : ']' ∈ inner ++ ']' :: rest := List.mem_append_right _ List.mem_cons_self
  rw [bracketed?, if_pos hmem, takeWhile_append_of_not_mem h]

theorem not_mem_of_bracketed? {cs inner : List Char} (h : bracketed? cs = some inner) :
    ']' ∉ inner := by
  unfold bracketed? at h
  split at h
  · split at h
    · cases h
      intro hmem
      have hne := List.all_eq_true.1 List.all_takeWhile _ hmem
      simp at hne
    · cases h
  · cases h

theorem bracketed?_eq_none_iff {cs : List Char} :
    bracketed? cs = none ↔ ∀ inner rest, cs ≠ '[' :: (inner ++ ']' :: rest) := by
  constructor
  · rintro h inner rest rfl
    simp [bracketed?] at h
  · intro h
    cases hb : bracketed? cs with
    | none => rfl
    | some inner =>
        rcases exists_append_of_bracketed? hb with ⟨rest, hrest⟩
        exact absurd hrest (h inner rest)

/-! ## Placeholders -/

theorem placeholder?_user (rest : List Char) :
    placeholder? (['u', 's', 'e', 'r'] ++ rest) = some .user := by
  simp [placeholder?, after?]

theorem placeholder?_args (rest : List Char) :
    placeholder? (['a', 'r', 'g', 's'] ++ rest) = some ((bracketed? rest).elim .args .arg) := by
  simp [placeholder?, after?]

/-- The words that introduce variables start differently from each other and from all others. -/
theorem placeholder?_scopeWord (s : Scope) (rest : List Char) :
    placeholder? (scopeWord s ++ rest) = (bracketed? rest).map (.keyed s) := by
  cases s <;> simp [placeholder?, scopeWord, Scope.name, after?, keyed?]

theorem spelled_arg_append (index rest : List Char) :
    (Placeholder.arg index).spelled ++ rest =
      ['a', 'r', 'g', 's'] ++ '[' :: (index ++ ']' :: rest) := by
  simp [Placeholder.spelled]

theorem spelled_keyed_append (s : Scope) (key rest : List Char) :
    (Placeholder.keyed s key).spelled ++ rest = scopeWord s ++ '[' :: (key ++ ']' :: rest) := by
  simp [Placeholder.spelled]

/-- What was found is what its spelling says, so the bracket was looked at in its place. -/
theorem endsBefore_of_placeholder? {p : Placeholder} {rest : List Char}
    (h : placeholder? (p.spelled ++ rest) = some p) : p.EndsBefore rest := by
  cases p with
  | user => trivial
  | args =>
      rw [Placeholder.spelled, placeholder?_args] at h
      cases hb : bracketed? rest with
      | none => exact bracketed?_eq_none_iff.1 hb
      | some inner =>
          rw [hb] at h
          cases h
  | arg index =>
      rw [spelled_arg_append, placeholder?_args] at h
      cases hb : bracketed? ('[' :: (index ++ ']' :: rest)) with
      | none =>
          rw [hb] at h
          cases h
      | some inner =>
          rw [hb] at h
          cases h
          exact not_mem_of_bracketed? hb
  | keyed s key =>
      rw [spelled_keyed_append, placeholder?_scopeWord] at h
      rcases Option.map_eq_some_iff.1 h with ⟨inner, hb, hsame⟩
      cases hsame
      exact not_mem_of_bracketed? hb

theorem placeholder?_spelled_append {p : Placeholder} {rest : List Char} (h : p.EndsBefore rest) :
    placeholder? (p.spelled ++ rest) = some p := by
  cases p with
  | user => exact placeholder?_user rest
  | args =>
      rw [Placeholder.spelled, placeholder?_args, bracketed?_eq_none_iff.2 h]
      rfl
  | arg index =>
      rw [spelled_arg_append, placeholder?_args, bracketed?_closed h]
      rfl
  | keyed s key =>
      rw [spelled_keyed_append, placeholder?_scopeWord, bracketed?_closed h]
      rfl

/-- The placeholder that is found at the front of a text is the one that the text starts with. -/
theorem placeholder?_eq_some_iff {cs : List Char} {p : Placeholder} :
    placeholder? cs = some p ↔ ∃ rest, p.Heads cs rest := by
  constructor
  · intro h
    rcases exists_append_of_placeholder? h with ⟨rest, rfl⟩
    exact ⟨rest, rfl, endsBefore_of_placeholder? h⟩
  · rintro ⟨rest, rfl, hends⟩
    exact placeholder?_spelled_append hends

theorem placeholder?_eq_none_iff {cs : List Char} :
    placeholder? cs = none ↔ ∀ p rest, ¬ Placeholder.Heads p cs rest := by
  rw [Option.eq_none_iff_forall_ne_some]
  refine forall_congr' fun p => ?_
  rw [Ne, placeholder?_eq_some_iff, not_exists]

/-! ## Readings -/

/-- A piece in front of what it fits is split off. -/
theorem split_spelled_append {piece : Piece} {rest : List Char} (h : piece.Fits rest) :
    split (piece.spelled ++ rest) = piece :: split rest := by
  cases piece with
  | literal c =>
      by_cases hc : c = '$'
      · subst hc
        simp [Piece.spelled, split, placeholder?_eq_none_iff.2 (h rfl)]
      · simp [Piece.spelled, split, hc]
  | placeholder p =>
      simp [Piece.spelled, split, placeholder?_spelled_append h]

theorem reads_split (cs : List Char) : Reads cs (split cs) := by
  fun_induction split cs with
  | case1 => exact .nil
  | case2 rest p hp ih =>
      rcases placeholder?_eq_some_iff.1 hp with ⟨tail, rfl, hends⟩
      rw [List.drop_left] at ih ⊢
      exact .cons (show (Piece.placeholder p).Fits tail from hends) ih
  | case3 rest hp ih =>
      exact .cons
        (show (Piece.literal '$').Fits rest from fun _ => placeholder?_eq_none_iff.1 hp) ih
  | case4 c rest hc ih =>
      exact .cons (show (Piece.literal c).Fits rest from fun h => absurd h hc) ih

/-- The pieces of a template are its only reading. -/
theorem reads_iff {cs : List Char} {pieces : List Piece} : Reads cs pieces ↔ split cs = pieces := by
  constructor
  · intro h
    induction h with
    | nil => rw [split]
    | cons hfits _ ih => rw [split_spelled_append hfits, ih]
  · rintro rfl
    exact reads_split cs

end ActionChain.Template
