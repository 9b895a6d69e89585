import ActionChain.Text.CaseTable

/-!
# Letter Case

Role names are compared without regard to case, by the full Unicode mapping
to lower case. Two letters need more than a table. The capital I with a dot
becomes two characters. The capital sigma becomes a final sigma at the end of
a word, which is decided by its neighbours: looking past the characters that
carry no case of their own, there is a cased letter before it and none after
it.

Everything the mapping produces is left alone by it, the final sigma
included, so a name and its lower-case form are interchangeable.

## Main definitions

* `Text.lowercaseChar`: the lower case of one character.
* `Text.isWordFinal`: whether a sigma between two texts ends its word.
* `Text.lowercase`: the lower case of a text.
-/

namespace ActionChain.Text

/-- Whether a code point lies in one of the ranges. -/
def inRanges (ranges : List (Nat × Nat)) (c : Char) : Bool :=
  ranges.any fun range => range.1 ≤ c.toNat && c.toNat ≤ range.2

/-- Whether a character is a letter with a case. -/
def isCased (c : Char) : Bool := inRanges casedRanges c

/-- Whether a search for a neighbouring letter looks through a character. -/
def isCaseIgnorable (c : Char) : Bool := inRanges caseIgnorableRanges c

/-- The row of the lower-case table that maps a code point. -/
def lowercaseRow? (n : Nat) : Option (Nat × Nat × Nat × Nat) :=
  lowercaseRows.find? fun (first, last, step, _) =>
    first ≤ n && n ≤ last && (n - first) % step == 0

/-- The lower case of one character, sigma in its usual form. -/
def lowercaseChar (c : Char) : List Char :=
  if c.toNat < 0x80 then [c.toLower]
  else if c = '\u0130' then ['i', '\u0307']
  else
    match lowercaseRow? c.toNat with
    | some (first, _, _, target) => [Char.ofNat (target + (c.toNat - first))]
    | none => [c]

/-- Whether the first character that a search does not look through is a cased
letter. -/
def meetsCased (cs : List Char) : Bool :=
  match cs.dropWhile isCaseIgnorable with
  | c :: _ => isCased c
  | [] => false

/-- Whether a sigma ends its word, given the characters before it in reverse
and those after it. -/
def isWordFinal (before after : List Char) : Bool := meetsCased before && !meetsCased after

/-- The lower case of the characters that follow `before`, which is given in
reverse. -/
def lowercaseAfter (before : List Char) : List Char → List Char
  | [] => []
  | c :: rest =>
    (if c = '\u03A3' then [if isWordFinal before rest then '\u03C2' else '\u03C3']
      else lowercaseChar c) ++ lowercaseAfter (c :: before) rest

/-- The lower case of a text. -/
def lowercase (s : String) : String := String.ofList (lowercaseAfter [] s.toList)

end ActionChain.Text
