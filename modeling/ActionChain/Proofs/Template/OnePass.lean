import ActionChain.Proofs.Template.Reading
import ActionChain.Proofs.Text.Trimming
import Mathlib.Algebra.Group.Nat.Defs
import Mathlib.Data.List.Forall2

/-!
# One Pass over a Template

A template is read once, from left to right, and what is put in is never read.

What a template comes to is the meanings of the pieces of its only reading, one
behind the other. The reading is a matter of the template alone, so a value that
looks like a placeholder stays what it is: whatever users type is a value.

The same text comes about in a single pass that has no pieces at all. It copies
everything up to the next dollar sign, puts a value behind what it has so far,
and goes on behind the placeholder, which it finds by counting octets. Such a
count might end inside of a character or short of a bracket; it never does, as
it is that of the spelling (`Template.expand?_eq`).

## Main definitions

* `Template.SpellsIndex`: digits that fit a word, perhaps behind a plus sign.
* `Template.Placeholder.Means`: what a placeholder stands for.
* `Template.octets`, `Template.cut?`: texts measured and cut by octets.
* `Template.fill?`: the single pass.

## Theorems

* `Template.Placeholder.means_iff`: the value of a placeholder is its meaning.
* `Template.cut?_append`: a text is cut behind its front.
* `Template.fill?_eq`: the single pass puts in the values of the pieces.
* `Template.render_of_reading`: what a template comes to.
-/

namespace ActionChain.Template

/-! ## Meanings -/

/-- Digits that spell a number of 64 bits, with or without a plus sign. -/
def SpellsIndex (cs : List Char) (n : Nat) : Prop :=
  ∃ digits, (cs = digits ∨ cs = '+' :: digits) ∧ digits ≠ [] ∧ (∀ c ∈ digits, c.isDigit) ∧
    Text.digitsValue digits = n ∧ n < 2 ^ 64

section Means

variable (subject : Subject) (args : List String) (vars : Variables)

/-- What a placeholder stands for. -/
inductive Placeholder.Means : Placeholder → String → Prop where
  | user {u : User} (h : subject.user? = some u) : Means .user u.name
  | nobody (h : subject.user? = none) : Means .user ""
  | args : Means .args (String.intercalate " " args)
  | arg {index inner : List Char} {n : Nat} {a : String} (htrim : Text.Trims index inner)
      (hspells : SpellsIndex inner n) (h : args[n]? = some a) : Means (.arg index) a
  | noArg {index inner : List Char} (htrim : Text.Trims index inner)
      (h : ∀ n, SpellsIndex inner n → args[n]? = none) : Means (.arg index) ""
  | bound {s : Scope} {key inner : List Char} {v : Value} (htrim : Text.Trims key inner)
      (h : (vars.scope s).get? (String.ofList inner) = some v) :
      Means (.keyed s key) ((vars.scope s).display v)
  | unbound {s : Scope} {key inner : List Char} (htrim : Text.Trims key inner)
      (h : (vars.scope s).get? (String.ofList inner) = none) : Means (.keyed s key) ""

/-- What a piece stands for. -/
inductive Piece.Means : Piece → List Char → Prop where
  | literal (c : Char) : Means (.literal c) [c]
  | placeholder {p : Placeholder} {text : String} (h : p.Means subject args vars text) :
      Means (.placeholder p) text.toList

end Means

/-- A text without a plus sign in front. -/
def unsigned : List Char → List Char
  | '+' :: rest => rest
  | cs => cs

theorem index?_eq (cs : List Char) : index? cs =
    if (unsigned cs).isEmpty || !(unsigned cs).all Char.isDigit then none
    else if Text.digitsValue (unsigned cs) < UInt64.size then some (Text.digitsValue (unsigned cs))
    else none :=
  rfl

theorem eq_unsigned (cs : List Char) : cs = unsigned cs ∨ cs = '+' :: unsigned cs := by
  unfold unsigned
  split
  · exact .inr rfl
  · exact .inl rfl

/-- Digits have no plus sign in front. -/
theorem unsigned_of_digits {digits : List Char} (h : ∀ c ∈ digits, c.isDigit) :
    unsigned digits = digits := by
  unfold unsigned
  split
  · exact absurd (h '+' List.mem_cons_self) (by decide)
  · rfl

theorem index?_eq_some_iff {cs : List Char} {n : Nat} : index? cs = some n ↔ SpellsIndex cs n := by
  rw [index?_eq]
  constructor
  · intro h
    split at h
    · cases h
    · rename_i hproper
      split at h
      · rename_i hlt
        cases h
        simp only [Bool.or_eq_true, List.isEmpty_iff, Bool.not_eq_true', not_or,
          Bool.not_eq_false, List.all_eq_true] at hproper
        exact ⟨unsigned cs, eq_unsigned cs, hproper.1, hproper.2, rfl, hlt⟩
      · cases h
  · rintro ⟨digits, hcs, hne, hdigits, rfl, hlt⟩
    have hunsigned : unsigned cs = digits := by
      rcases hcs with rfl | rfl
      · exact unsigned_of_digits hdigits
      · rfl
    have hempty : digits.isEmpty = false := by simpa using hne
    have hall : digits.all Char.isDigit = true := List.all_eq_true.2 hdigits
    have hfits : Text.digitsValue digits < UInt64.size := hlt
    rw [hunsigned, hempty, hall, if_neg (by decide), if_pos hfits]

section

variable {subject : Subject} {args : List String} {vars : Variables}

theorem Placeholder.Means.value_eq {p : Placeholder} {text : String}
    (h : p.Means subject args vars text) : p.value subject args vars = text := by
  cases h with
  | user h => simp [value, h]
  | nobody h => simp [value, h]
  | args => rfl
  | arg htrim hspells h =>
      rw [value, Text.trims_iff.1 htrim, index?_eq_some_iff.2 hspells, Option.bind_some, h]
      rfl
  | @noArg index inner htrim h =>
      rw [value, Text.trims_iff.1 htrim]
      cases hn : index? inner with
      | none => rfl
      | some n =>
          rw [Option.bind_some, h n (index?_eq_some_iff.1 hn)]
          rfl
  | bound htrim h =>
      simp only [value, Text.trims_iff.1 htrim, h]
      rfl
  | unbound htrim h =>
      simp only [value, Text.trims_iff.1 htrim, h]
      rfl

theorem Placeholder.means_value (p : Placeholder) :
    p.Means subject args vars (p.value subject args vars) := by
  cases p with
  | user =>
      cases hu : subject.user? with
      | none =>
          rw [value, hu]
          exact .nobody hu
      | some u =>
          rw [value, hu]
          exact .user hu
  | args => exact .args
  | arg index =>
      have htrim := Text.trims_trimBlanks index
      rw [value]
      cases hn : (index? (Text.trimBlanks index)).bind fun n => args[n]? with
      | none =>
          refine .noArg htrim fun n hspells => ?_
          rw [index?_eq_some_iff.2 hspells] at hn
          exact hn
      | some a =>
          rcases Option.bind_eq_some_iff.1 hn with ⟨n, hindex, ha⟩
          exact .arg htrim (index?_eq_some_iff.1 hindex) ha
  | keyed s key =>
      have htrim := Text.trims_trimBlanks key
      simp only [value]
      cases hv : (vars.scope s).get? (String.ofList (Text.trimBlanks key)) with
      | none => exact .unbound htrim hv
      | some v => exact .bound htrim hv

/-- The value of a placeholder is its only meaning. -/
theorem Placeholder.means_iff {p : Placeholder} {text : String} :
    p.Means subject args vars text ↔ p.value subject args vars = text :=
  ⟨Means.value_eq, fun h => h ▸ p.means_value⟩

theorem Piece.means_iff {piece : Piece} {text : List Char} :
    piece.Means subject args vars text ↔ piece.value subject args vars = text := by
  constructor
  · rintro (c | h)
    · rfl
    · rw [Piece.value, Placeholder.means_iff.1 h]
  · rintro rfl
    cases piece with
    | literal c => exact .literal c
    | placeholder p => exact .placeholder (Placeholder.means_iff.2 rfl)

theorem forall₂_means_iff {pieces : List Piece} {texts : List (List Char)} :
    List.Forall₂ (Piece.Means subject args vars) pieces texts ↔
      pieces.map (Piece.value subject args vars) = texts := by
  have hmeans : Piece.Means subject args vars =
      fun piece text => Piece.value subject args vars piece = text :=
    funext₂ fun _ _ => propext Piece.means_iff
  rw [hmeans, ← List.forall₂_map_left_iff, List.forall₂_eq_eq_eq]

end

/-! ## Octets -/

/-- How many octets a text takes. -/
def octets : List Char → Nat
  | [] => 0
  | c :: cs => c.utf8Size + octets cs

/-- What is left of a text behind some octets, unless they end inside of a character or the text
has fewer. -/
def cut? : Nat → List Char → Option (List Char)
  | 0, cs => some cs
  | _ + 1, [] => none
  | n + 1, c :: cs => if c.utf8Size ≤ n + 1 then cut? (n + 1 - c.utf8Size) cs else none

theorem octets_append (front rest : List Char) :
    octets (front ++ rest) = octets front + octets rest := by
  induction front with
  | nil => exact (Nat.zero_add _).symm
  | cons c front ih => rw [List.cons_append, octets, octets, ih, Nat.add_assoc]

/-- A text is cut behind its front. -/
theorem cut?_append (front rest : List Char) : cut? (octets front) (front ++ rest) = some rest := by
  induction front with
  | nil => cases rest <;> rfl
  | cons c front ih =>
      have hpos := c.utf8Size_pos
      cases hn : octets (c :: front) with
      | zero =>
          rw [octets] at hn
          omega
      | succ n =>
          rw [octets] at hn
          rw [List.cons_append, cut?, if_pos (by omega), ← hn, Nat.add_sub_cancel_left, ih]

theorem length_cut?_le {n : Nat} {cs rest : List Char} (h : cut? n cs = some rest) :
    rest.length ≤ cs.length := by
  induction cs generalizing n with
  | nil =>
      cases n with
      | zero =>
          cases h
          exact Nat.le_refl _
      | succ n => cases h
  | cons c cs ih =>
      cases n with
      | zero =>
          cases h
          exact Nat.le_refl _
      | succ n =>
          rw [cut?] at h
          split at h
          · exact Nat.le_succ_of_le (ih h)
          · cases h

/-! ## A single pass -/

section

variable (subject : Subject) (args : List String) (vars : Variables)

/-- What stands between brackets at the front, and the octets up to behind the second one. -/
def bracketedOctets? : List Char → Option (List Char × Nat)
  | '[' :: rest =>
    if ']' ∈ rest then
      let inner := rest.takeWhile (· ≠ ']')
      some (inner, octets inner + 2)
    else none
  | _ => none

/-- The value of the variable of a scope that a text starts with, and how many octets spell it. -/
def expandKeyed? (s : Scope) (tail : List Char) : Option (String × Nat) :=
  ((after? (scopeWord s) tail).bind bracketedOctets?).map fun (key, used) =>
    ((Placeholder.keyed s key).value subject args vars, octets (scopeWord s) + used)

/-- The value of the placeholder that a text starts with, and how many octets spell it. -/
def expand? (tail : List Char) : Option (String × Nat) :=
  if (after? ['u', 's', 'e', 'r'] tail).isSome then
    some (Placeholder.user.value subject args vars, 4)
  else
    match after? ['a', 'r', 'g', 's'] tail with
    | some after =>
      some (match bracketedOctets? after with
        | some (index, used) => ((Placeholder.arg index).value subject args vars, 4 + used)
        | none => (Placeholder.args.value subject args vars, 4))
    | none => (expandKeyed? subject args vars .server tail).or
        (expandKeyed? subject args vars .global tail)

/-- Goes through a text once and puts values behind what there is so far. Nothing comes of it if
the octets of a placeholder end inside of a character. -/
def fill? (out rest : List Char) : Option (List Char) :=
  match hrest : rest.dropWhile (· ≠ '$') with
  | [] => some (out ++ rest)
  | _ :: tail =>
    have hlt : tail.length < rest.length := by
      have := (List.dropWhile_sublist (· ≠ '$') (l := rest)).length_le
      rw [hrest, List.length_cons] at this
      omega
    let out := out ++ rest.takeWhile (· ≠ '$')
    match expand? subject args vars tail with
    | some (text, used) =>
      match hcut : cut? used tail with
      | some behind =>
        have := length_cut?_le hcut
        fill? (out ++ text.toList) behind
      | none => none
    | none => fill? (out ++ ['$']) tail
termination_by rest.length

end

theorem bracketedOctets?_eq (cs : List Char) :
    bracketedOctets? cs = (bracketed? cs).map fun inner => (inner, octets inner + 2) := by
  unfold bracketedOctets?
  split
  · rw [bracketed?]
    split <;> rfl
  · rename_i hopen
    have hnone : bracketed? cs = none :=
      bracketed?_eq_none_iff.2 fun inner rest hcs => hopen _ hcs
    rw [hnone]
    rfl

section

variable {subject : Subject} {args : List String} {vars : Variables}

theorem expandKeyed?_eq (s : Scope) (tail : List Char) :
    expandKeyed? subject args vars s tail =
      (keyed? s tail).map fun p => (p.value subject args vars, octets p.spelled) := by
  unfold expandKeyed? keyed?
  cases after? (scopeWord s) tail with
  | none => rfl
  | some after =>
      simp only [Option.bind_some, bracketedOctets?_eq, Option.map_map]
      refine congrArg (Option.map · _) (funext fun key => ?_)
      -- The two brackets take an octet each.
      have hspelled : octets (Placeholder.keyed s key).spelled =
          octets (scopeWord s) + (octets key + 2) := by
        simp only [Placeholder.spelled, List.append_assoc, List.cons_append, octets_append, octets]
        have hone : '['.utf8Size = 1 ∧ ']'.utf8Size = 1 := by decide
        omega
      simp only [Function.comp_apply, hspelled]

/-- What is put in for a placeholder is its value, and the octets are those of its spelling. -/
theorem expand?_eq (tail : List Char) :
    expand? subject args vars tail =
      (placeholder? tail).map fun p => (p.value subject args vars, octets p.spelled) := by
  unfold expand? placeholder?
  by_cases huser : (after? ['u', 's', 'e', 'r'] tail).isSome
  · rw [if_pos huser, if_pos huser]
    rfl
  · rw [if_neg huser, if_neg huser]
    cases after? ['a', 'r', 'g', 's'] tail with
    | none =>
        simp only [expandKeyed?_eq]
        cases keyed? .server tail <;> rfl
    | some after =>
        simp only [bracketedOctets?_eq]
        cases bracketed? after with
        | none => rfl
        | some index =>
            have hspelled : octets (Placeholder.arg index).spelled = 4 + (octets index + 2) := by
              have hargs : octets ['a', 'r', 'g', 's', '['] = 5 ∧ octets [']'] = 1 := by decide
              rw [Placeholder.spelled, octets_append, octets_append]
              omega
            simp only [Option.map_some, Option.elim_some, hspelled]

/-- A text is read character by character up to its first dollar sign. -/
theorem split_append_of_not_mem {front : List Char} (h : '$' ∉ front) (rest : List Char) :
    split (front ++ rest) = front.map .literal ++ split rest := by
  induction front with
  | nil => rfl
  | cons c front ih =>
      have hc : c ≠ '$' := fun heq => h (heq ▸ List.mem_cons_self)
      have hfront : '$' ∉ front := fun hmem => h (List.mem_cons_of_mem c hmem)
      rw [List.cons_append, split, if_neg hc, ih hfront, List.map_cons, List.cons_append]

theorem flatMap_value_literals (front : List Char) :
    (front.map Piece.literal).flatMap (Piece.value subject args vars) = front := by
  induction front with
  | nil => rfl
  | cons c front ih => exact congrArg (c :: ·) ih

theorem not_mem_takeWhile_dollar (rest : List Char) : '$' ∉ rest.takeWhile (· ≠ '$') := by
  intro hmem
  have hne := List.all_eq_true.1 List.all_takeWhile _ hmem
  simp at hne

/-- What comes behind a text up to its first dollar sign. -/
theorem eq_append_dollar {rest tail : List Char} {c : Char}
    (h : rest.dropWhile (· ≠ '$') = c :: tail) :
    rest = rest.takeWhile (· ≠ '$') ++ '$' :: tail := by
  have hc : c = '$' := by
    have hhead := List.head?_dropWhile_not (· ≠ '$') rest
    rw [h] at hhead
    simpa using hhead
  subst hc
  rw [← h, List.takeWhile_append_dropWhile]

/-- The single pass puts in the values of the pieces. -/
theorem fill?_eq (out rest : List Char) :
    fill? subject args vars out rest =
      some (out ++ (split rest).flatMap (Piece.value subject args vars)) := by
  -- What is read up to the first dollar sign comes out as it is.
  have hfront {rest tail : List Char} {c : Char} (h : rest.dropWhile (· ≠ '$') = c :: tail) :
      (split rest).flatMap (Piece.value subject args vars) =
        rest.takeWhile (· ≠ '$') ++
          (split ('$' :: tail)).flatMap (Piece.value subject args vars) := by
    have hsplit := split_append_of_not_mem (not_mem_takeWhile_dollar rest) ('$' :: tail)
    rw [← eq_append_dollar h] at hsplit
    rw [hsplit, List.flatMap_append, flatMap_value_literals]
  fun_induction fill? subject args vars out rest with
  | case1 out rest hrest =>
      have hall := List.takeWhile_append_dropWhile (p := (· ≠ '$')) (l := rest)
      rw [hrest, List.append_nil] at hall
      have hnone : '$' ∉ rest := hall ▸ not_mem_takeWhile_dollar rest
      have hsplit := split_append_of_not_mem hnone []
      rw [List.append_nil, split, List.append_nil] at hsplit
      rw [hsplit, flatMap_value_literals]
  | case2 out rest c tail hrest _ _ text used hexpand behind hcut _ ih =>
      rw [expand?_eq] at hexpand
      rcases Option.map_eq_some_iff.1 hexpand with ⟨p, hp, hused⟩
      cases hused
      rcases placeholder?_eq_some_iff.1 hp with ⟨tail', rfl, hends⟩
      -- The cut is made where the spelling ends.
      rw [cut?_append] at hcut
      cases hcut
      have hsplit : split ('$' :: (p.spelled ++ behind)) = .placeholder p :: split behind :=
        split_spelled_append (show (Piece.placeholder p).Fits behind from hends)
      rw [ih, hfront hrest, hsplit, List.flatMap_cons, Piece.value, List.append_assoc,
        List.append_assoc]
  | case3 out rest c tail hrest _ text used hexpand hcut =>
      rw [expand?_eq] at hexpand
      rcases Option.map_eq_some_iff.1 hexpand with ⟨p, hp, hused⟩
      cases hused
      rcases placeholder?_eq_some_iff.1 hp with ⟨tail', rfl, -⟩
      rw [cut?_append] at hcut
      cases hcut
  | case4 out rest c tail hrest _ _ hexpand ih =>
      rw [expand?_eq, Option.map_eq_none_iff] at hexpand
      have hsplit : split ('$' :: tail) = .literal '$' :: split tail :=
        split_spelled_append
          (show (Piece.literal '$').Fits tail from fun _ => placeholder?_eq_none_iff.1 hexpand)
      rw [ih, hfront hrest, hsplit, List.flatMap_cons, Piece.value, List.append_assoc,
        List.append_assoc]

end

/-- What a template comes to. It has one reading, which is a matter of the template alone and
spells it out again. Whatever the subject, the arguments and the variables, every piece of the
reading has one meaning, and the text is the meanings one behind the other. A single pass that
counts octets and never looks back at what it has put in gives the same text. -/
theorem render_of_reading (template : String) :
    ∃ pieces : List Piece,
      Reads template.toList pieces ∧
      (∀ others, Reads template.toList others → others = pieces) ∧
      pieces.flatMap Piece.spelled = template.toList ∧
      ∀ (subject : Subject) (args : List String) (vars : Variables),
        (∃ texts, List.Forall₂ (Piece.Means subject args vars) pieces texts ∧
          (∀ others, List.Forall₂ (Piece.Means subject args vars) pieces others →
            others = texts) ∧
          (render template subject args vars).toList = texts.flatten) ∧
        fill? subject args vars [] template.toList =
          some (render template subject args vars).toList := by
  refine ⟨split template.toList, reads_split _, fun others h => (reads_iff.1 h).symm,
    flatMap_spelled_split _, fun subject args vars => ⟨⟨_, forall₂_means_iff.2 rfl,
      fun others h => (forall₂_means_iff.1 h).symm, ?_⟩, ?_⟩⟩
  · rw [render, String.toList_ofList]
    rfl
  · rw [fill?_eq, render, String.toList_ofList, List.nil_append]

/-- What a user typed is not looked at for placeholders. -/
example : render "$args[0]!" (.guild ⟨1, "home"⟩) ["$server[secret]"] .empty =
    "$server[secret]!" := by
  cbv

end ActionChain.Template
