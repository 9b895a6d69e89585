import ActionChain.Chain.Subject
import ActionChain.Text.Blank
import ActionChain.Text.Digits
import ActionChain.Variables.Scope
import ActionChain.Variables.Tree

/-!
# Templates

A message is written with placeholders: the name of the user, the arguments
of the invocation, variables. A template is first split into pieces, by
itself and once; the values come in afterwards, piece by piece. What a user
typed, or what a variable holds, is therefore never looked at for further
placeholders.

Splitting goes from left to right. At a dollar sign the longest thing that
can stand there is tried in a fixed order, and a dollar sign that starts
nothing is a character like any other.

## Main definitions

* `Template.Placeholder`: what a dollar sign can introduce.
* `Template.placeholder?`: the placeholder behind a dollar sign.
* `Template.split`: the pieces of a template.
* `Template.Placeholder.value`: what a placeholder stands for.
* `Template.render`: a template with every placeholder replaced.

## Theorems

* `Template.flatMap_spelled_split`: the pieces spell the template.
-/

namespace ActionChain.Template

/-- What a dollar sign can introduce. -/
inductive Placeholder where
  /-- The name of the user behind the subject. -/
  | user
  /-- All arguments. -/
  | args
  /-- The argument whose index stands between brackets. -/
  | arg (index : List Char)
  /-- The variable whose key stands between brackets. -/
  | keyed (scope : Scope) (key : List Char)
  deriving DecidableEq

/-- A piece of a template. -/
inductive Piece where
  | literal (c : Char)
  | placeholder (p : Placeholder)
  deriving DecidableEq

/-- The word that introduces a scope's variables. -/
def scopeWord (s : Scope) : List Char := s.name.toList

/-- How a placeholder is spelled, without its dollar sign. -/
def Placeholder.spelled : Placeholder → List Char
  | .user => ['u', 's', 'e', 'r']
  | .args => ['a', 'r', 'g', 's']
  | .arg index => ['a', 'r', 'g', 's', '['] ++ index ++ [']']
  | .keyed s key => scopeWord s ++ '[' :: key ++ [']']

/-- How a piece is spelled. -/
def Piece.spelled : Piece → List Char
  | .literal c => [c]
  | .placeholder p => '$' :: p.spelled

/-- What follows a word at the front. -/
def after? : (word : List Char) → List Char → Option (List Char)
  | [], cs => some cs
  | w :: word, c :: cs => if w = c then after? word cs else none
  | _ :: _, [] => none

/-- What stands between a bracket at the front and the first one that closes
it. -/
def bracketed? : List Char → Option (List Char)
  | '[' :: rest => if ']' ∈ rest then some (rest.takeWhile (· ≠ ']')) else none
  | _ => none

/-- The variable of a scope that a text starts with. -/
def keyed? (s : Scope) (cs : List Char) : Option Placeholder :=
  ((after? (scopeWord s) cs).bind bracketed?).map (.keyed s)

/-- The placeholder that a text behind a dollar sign starts with. Arguments
without a closed bracket are all arguments; a variable needs its key. -/
def placeholder? (cs : List Char) : Option Placeholder :=
  if (after? ['u', 's', 'e', 'r'] cs).isSome then some .user
  else
    match after? ['a', 'r', 'g', 's'] cs with
    | some rest => some ((bracketed? rest).elim .args .arg)
    | none => (keyed? .server cs).or (keyed? .global cs)

/-- The pieces of a template. -/
def split : List Char → List Piece
  | [] => []
  | c :: rest =>
    if c = '$' then
      match placeholder? rest with
      | some p => .placeholder p :: split (rest.drop p.spelled.length)
      | none => .literal c :: split rest
    else .literal c :: split rest
termination_by cs => cs.length
decreasing_by all_goals (simp only [List.length_drop, List.length_cons]; omega)

/-- A decimal number of at most 64 bits, with or without a plus sign. -/
def index? (cs : List Char) : Option Nat :=
  let digits := match cs with
    | '+' :: rest => rest
    | cs => cs
  if digits.isEmpty || !digits.all Char.isDigit then none
  else
    let n := Text.digitsValue digits
    if n < UInt64.size then some n else none

/-- What a placeholder stands for: nothing where the user, the argument or the
variable is missing. -/
def Placeholder.value (subject : Subject) (args : List String) (vars : Variables) :
    Placeholder → String
  | .user => (subject.user?.map User.name).getD ""
  | .args => String.intercalate " " args
  | .arg index => ((index? (Text.trimBlanks index)).bind fun i => args[i]?).getD ""
  | .keyed s key =>
    let graph := vars.scope s
    ((graph.get? (String.ofList (Text.trimBlanks key))).map graph.display).getD ""

/-- The text of a piece. -/
def Piece.value (subject : Subject) (args : List String) (vars : Variables) : Piece → List Char
  | .literal c => [c]
  | .placeholder p => (p.value subject args vars).toList

/-- A template with every placeholder replaced by its value. -/
def render (template : String) (subject : Subject) (args : List String) (vars : Variables) :
    String :=
  String.ofList ((split template.toList).flatMap (Piece.value subject args vars))

/-! ## The pieces spell the template -/

theorem eq_append_of_after? {word cs rest : List Char} (h : after? word cs = some rest) :
    cs = word ++ rest := by
  induction word generalizing cs with
  | nil => cases h; rfl
  | cons w word ih =>
    cases cs with
    | nil => cases h
    | cons c cs =>
      simp only [after?] at h
      split at h
      · rename_i heq
        rw [heq, ih h]
        rfl
      · cases h

theorem exists_takeWhile_append {c : Char} {cs : List Char} (h : c ∈ cs) :
    ∃ rest, cs = cs.takeWhile (· ≠ c) ++ c :: rest := by
  induction cs with
  | nil => cases h
  | cons d cs ih =>
    by_cases hd : d = c
    · exact ⟨cs, by simp [hd]⟩
    · obtain ⟨rest, hrest⟩ := ih ((List.mem_cons.1 h).resolve_left (Ne.symm hd))
      refine ⟨rest, ?_⟩
      rw [List.takeWhile_cons_of_pos (by simpa using hd), List.cons_append, ← hrest]

theorem exists_append_of_bracketed? {cs inner : List Char} (h : bracketed? cs = some inner) :
    ∃ rest, cs = '[' :: inner ++ ']' :: rest := by
  unfold bracketed? at h
  split at h
  · rename_i rest
    split at h
    -- The front ends right before the first closing bracket, which is there.
    · rename_i hmem
      cases h
      obtain ⟨tail, htail⟩ := exists_takeWhile_append hmem
      exact ⟨tail, by rw [List.cons_append, ← htail]⟩
    · cases h
  · cases h

/-- A placeholder that a text starts with is spelled by its front. -/
theorem exists_append_of_placeholder? {cs : List Char} {p : Placeholder}
    (h : placeholder? cs = some p) : ∃ rest, cs = p.spelled ++ rest := by
  unfold placeholder? at h
  split at h
  · rename_i hsome
    cases h
    obtain ⟨rest, hrest⟩ := Option.isSome_iff_exists.1 hsome
    exact ⟨rest, eq_append_of_after? hrest⟩
  · split at h
    · rename_i rest hrest
      have hcs := eq_append_of_after? hrest
      -- With a closed bracket it is one argument, without one all of them.
      cases hb : bracketed? rest with
      | none =>
        rw [hb] at h
        cases h
        exact ⟨rest, hcs⟩
      | some inner =>
        rw [hb] at h
        cases h
        obtain ⟨tail, htail⟩ := exists_append_of_bracketed? hb
        exact ⟨tail, by simp [hcs, htail, Placeholder.spelled]⟩
    · have variableCase : ∀ s, keyed? s cs = some p → ∃ rest, cs = p.spelled ++ rest := by
        intro s hs
        obtain ⟨inner, hinner, rfl⟩ := Option.map_eq_some_iff.1 hs
        obtain ⟨rest, hrest, hb⟩ := Option.bind_eq_some_iff.1 hinner
        obtain ⟨tail, htail⟩ := exists_append_of_bracketed? hb
        exact ⟨tail, by simp [eq_append_of_after? hrest, htail, Placeholder.spelled]⟩
      cases hserver : keyed? .server cs with
      | some q =>
        rw [hserver] at h
        cases h
        exact variableCase _ hserver
      | none =>
        rw [hserver] at h
        exact variableCase _ h

/-- The pieces of a template spell it. -/
theorem flatMap_spelled_split (cs : List Char) : (split cs).flatMap Piece.spelled = cs := by
  fun_induction split cs with
  | case1 => rfl
  | case2 rest p hp ih =>
    obtain ⟨tail, htail⟩ := exists_append_of_placeholder? hp
    rw [htail, List.drop_left] at ih
    simp [Piece.spelled, htail, ih]
  | case3 rest _ ih => simp [Piece.spelled, ih]
  | case4 c rest _ ih => simp [Piece.spelled, ih]

end ActionChain.Template
