import ActionChain.Proofs.Json.Spelling

/-!
# Reading Back a Written Value

What the reader makes of the pretty text of a JSON value: the value itself, as
a source, except for its numbers, which are whatever their own characters are
read as, and except for what is nested too deeply.

The reader is told by the first symbol what it has in front of it, and blanks
before that symbol change nothing, so the layout plays no part. What it needs
of the rest is only that it does not extend a number, and a comma, a line
break and the end of the text do not. The fuel counts calls. A value starts
with a symbol of its own and an item costs a call more than its value, so
twice the length of the text lasts, with one call to spare for a list.

## Main definitions

* `Key.written`: the key of a member, as it is read back.
* `Json.reread`: the source that a written value is read back as.

## Theorems

* `Scan.value?_pretty`, `Scan.items?_pretty`, `Scan.members?_pretty`: reading a
  value off the front of a text.
* `Source.parse?_toPrettyText`: reading the text of a value.
-/

namespace ActionChain

/-- The key of a member, as it is read back. -/
def Key.written (text : String) : Key :=
  ⟨some text, (text.toList.map Piece.ofChar).any Piece.isEscape⟩

namespace Json

mutual

/-- The source that a written value is read back as, where `depth` more arrays
and objects may be opened. -/
def reread (depth : Nat) : Json → Source
  | .null => .null
  | .bool b => .bool b
  | .number n => n.source
  | .string s => .string s
  | .array items => Scan.nested depth (.array (rereadItems (depth - 1) items))
  | .object members => Scan.nested depth (.object (rereadMembers (depth - 1) members))

/-- `reread` on every item. -/
def rereadItems (depth : Nat) : List Json → List Source
  | [] => []
  | item :: rest => reread depth item :: rereadItems depth rest

/-- `reread` on the value of every member. -/
def rereadMembers (depth : Nat) : List (String × Json) → List (Key × Source)
  | [] => []
  | (key, value) :: rest => (Key.written key, reread depth value) :: rereadMembers depth rest

end

theorem pretty_array (level : Nat) (item : Json) (rest : List Json) :
    pretty level (.array (item :: rest)) =
      '[' :: prettyItems (level + 1) (item :: rest) ++ newLine level ++ [']'] := by
  simp [pretty]

theorem pretty_object (level : Nat) (m : String × Json) (rest : List (String × Json)) :
    pretty level (.object (m :: rest)) =
      '\x7b' :: prettyMembers (level + 1) (m :: rest) ++ newLine level ++ ['\x7d'] := by
  simp [pretty]

/-- A written value starts with a symbol that is neither a blank nor a closing
bracket. -/
theorem exists_pretty (level : Nat) (j : Json) :
    ∃ c more, j.pretty level = c :: more ∧ Scan.isBlank (some c) = false ∧ c ≠ ']' := by
  cases j with
  | null => exact ⟨_, _, rfl, by decide, by decide⟩
  | bool b => cases b <;> exact ⟨_, _, rfl, by decide, by decide⟩
  | number n =>
      rcases n.exists_spell with ⟨c, more, hspell, hc⟩
      refine ⟨c, more, by rw [pretty, hspell], ?_⟩
      rcases hc with hc | hc
      · subst hc
        exact ⟨by decide, by decide⟩
      · exact ⟨Scan.not_blank_of_isDigit hc, Scan.ne_of_isDigit hc (by decide)⟩
  | string s => exact ⟨_, _, rfl, by decide, by decide⟩
  | array items =>
      cases items with
      | nil => exact ⟨'[', [']'], by rw [pretty], by decide, by decide⟩
      | cons item rest => exact ⟨'[', _, pretty_array level item rest, by decide, by decide⟩
  | object members =>
      cases members with
      | nil => exact ⟨'\x7b', ['\x7d'], by rw [pretty], by decide, by decide⟩
      | cons m rest => exact ⟨'\x7b', _, pretty_object level m rest, by decide, by decide⟩

end Json

namespace Scan

/-! ## Blanks -/

theorem skipBlanks_idem (symbols : List Symbol) :
    skipBlanks (skipBlanks symbols) = skipBlanks symbols := by
  induction symbols with
  | nil => rfl
  | cons s rest ih =>
      by_cases hs : isBlank s = true
      · rw [show skipBlanks (s :: rest) = skipBlanks rest from List.dropWhile_cons_of_pos hs]
        exact ih
      · have hkept : skipBlanks (s :: rest) = s :: rest := List.dropWhile_cons_of_neg hs
        rw [hkept, hkept]

/-- A line break and its indentation are blanks. -/
theorem skipBlanks_newLine (level : Nat) (symbols : List Symbol) :
    skipBlanks ((Json.newLine level).map some ++ symbols) = skipBlanks symbols := by
  have hspaces : ∀ k, skipBlanks ((List.replicate k ' ').map some ++ symbols)
      = skipBlanks symbols := by
    intro k
    induction k with
    | zero => rfl
    | succ k ih => exact (List.dropWhile_cons_of_pos rfl).trans ih
  exact (List.dropWhile_cons_of_pos rfl).trans (hspaces (2 * level))

/-- Blanks in front of a value change nothing. -/
theorem value?_skipBlanks (fuel depth : Nat) (symbols : List Symbol) :
    value? fuel depth (skipBlanks symbols) = value? fuel depth symbols := by
  cases fuel with
  | zero => rfl
  | succ fuel => rw [value?, value?, skipBlanks_idem]

theorem value?_newLine (fuel depth level : Nat) (symbols : List Symbol) :
    value? fuel depth ((Json.newLine level).map some ++ symbols) = value? fuel depth symbols := by
  rw [← value?_skipBlanks, skipBlanks_newLine, value?_skipBlanks]

theorem items?_skipBlanks (fuel depth : Nat) (symbols : List Symbol) :
    items? fuel depth (skipBlanks symbols) = items? fuel depth symbols := by
  cases fuel with
  | zero => rfl
  | succ fuel => rw [items?, items?, value?_skipBlanks]

theorem members?_skipBlanks (fuel depth : Nat) (symbols : List Symbol) :
    members? fuel depth (skipBlanks symbols) = members? fuel depth symbols := by
  cases fuel with
  | zero => rfl
  | succ fuel => rw [members?, members?, skipBlanks_idem]

/-! ## Scalars -/

theorem ends_cons {c : Char} (hdigit : c.isDigit = false) (hmark : c ≠ '.' ∧ c ≠ 'e' ∧ c ≠ 'E')
    (rest : List Symbol) : Ends (some c :: rest) := by
  intro d hd
  rw [List.head?_cons, Option.some.injEq, Option.some.injEq] at hd
  subst hd
  exact ⟨hdigit, hmark⟩

theorem textSource_ofChar (s : String) : textSource (s.toList.map Piece.ofChar) = .string s := by
  simp only [textSource, Piece.chars?_ofChar, String.ofList_toList]

theorem key_ofChar (s : String) : key (s.toList.map Piece.ofChar) = Key.written s := by
  rw [key, Piece.chars?_ofChar, Option.map_some, String.ofList_toList, Key.written]

theorem value?_quote (fuel depth : Nat) (s : String) (rest : List Symbol) :
    value? (fuel + 1) depth ((Json.quote s).map some ++ rest) = some (.string s, rest) := by
  have htext := text?_escape s.toList rest
  have hquote : (Json.quote s).map some ++ rest =
      some '"' :: ((Json.escape s.toList).map some ++ some '"' :: rest) := by
    simp [Json.quote]
  rw [hquote]
  simp only [value?, skipBlanks_of_not_blank (show isBlank (some '"') = false by decide), htext,
    Option.bind_eq_bind, Option.bind_some, textSource_ofChar]
  rfl

theorem value?_bool (fuel depth : Nat) (b : Bool) (rest : List Symbol) :
    value? (fuel + 1) depth ((Json.spellBool b).map some ++ rest) = some (.bool b, rest) := by
  cases b <;> simp [Json.spellBool, value?, skipBlanks, isBlank, expect?]

theorem value?_null (fuel depth : Nat) (rest : List Symbol) :
    value? (fuel + 1) depth (['n', 'u', 'l', 'l'].map some ++ rest) = some (.null, rest) := by
  simp [value?, skipBlanks, isBlank, expect?]

/-! ## Lists -/

section Lists

variable {fuel depth : Nat} {symbols rest tail : List Symbol} {item : Source}
  {items : List Source} {members : List (Key × Source)}

theorem value?_openArray {c : Char} {more : List Symbol}
    (hhead : skipBlanks symbols = some c :: more)
    (hc : c ≠ ']') (hitems : items? fuel (depth - 1) symbols = some (items, tail)) :
    value? (fuel + 1) depth (some '[' :: symbols) = some (nested depth (.array items), tail) := by
  simp only [value?, skipBlanks_of_not_blank (show isBlank (some '[') = false by decide)]
  split
  · rename_i hclose
    rw [hhead] at hclose
    exact absurd (Option.some.inj (List.cons.inj hclose).1) hc
  · rw [items?_skipBlanks, hitems]
    rfl

theorem value?_openObject {c : Char} {more : List Symbol}
    (hhead : skipBlanks symbols = some c :: more)
    (hc : c ≠ '\x7d') (hmembers : members? fuel (depth - 1) symbols = some (members, tail)) :
    value? (fuel + 1) depth (some '\x7b' :: symbols)
      = some (nested depth (.object members), tail) := by
  simp only [value?, skipBlanks_of_not_blank (show isBlank (some '\x7b') = false by decide)]
  split
  · rename_i hclose
    rw [hhead] at hclose
    exact absurd (Option.some.inj (List.cons.inj hclose).1) hc
  · rw [members?_skipBlanks, hmembers]
    rfl

theorem items?_last (hvalue : value? fuel depth symbols = some (item, rest))
    (hclose : skipBlanks rest = some ']' :: tail) :
    items? (fuel + 1) depth symbols = some ([item], tail) := by
  simp only [items?, hvalue, Option.bind_eq_bind, Option.bind_some, hclose]
  rfl

theorem items?_more (hvalue : value? fuel depth symbols = some (item, some ',' :: rest))
    (hrest : items? fuel depth rest = some (items, tail)) :
    items? (fuel + 1) depth symbols = some (item :: items, tail) := by
  simp only [items?, hvalue, Option.bind_eq_bind, Option.bind_some,
    skipBlanks_of_not_blank (show isBlank (some ',') = false by decide), hrest]
  rfl

/-- A member in front of a list of members: its key, a colon and a blank. -/
def member (text : String) (symbols : List Symbol) : List Symbol :=
  (Json.quote text).map some ++ some ':' :: some ' ' :: symbols

theorem value?_space (fuel depth : Nat) (symbols : List Symbol) :
    value? fuel depth (some ' ' :: symbols) = value? fuel depth symbols := by
  rw [← value?_skipBlanks, ← value?_skipBlanks fuel depth symbols]
  exact congrArg _ (List.dropWhile_cons_of_pos rfl)

/-- The quote of a key is what a member starts with. -/
theorem skipBlanks_member (level : Nat) (text : String) (symbols : List Symbol) :
    skipBlanks ((Json.newLine level).map some ++ member text symbols) =
      some '"' :: ((Json.escape text.toList).map some ++
        some '"' :: some ':' :: some ' ' :: symbols) := by
  have hmember : member text symbols = some '"' :: ((Json.escape text.toList).map some ++
      some '"' :: some ':' :: some ' ' :: symbols) := by
    simp [member, Json.quote]
  rw [skipBlanks_newLine, hmember,
    skipBlanks_of_not_blank (show isBlank (some '"') = false by decide)]

theorem members?_last (level : Nat) {text : String}
    (hvalue : value? fuel depth symbols = some (item, rest))
    (hclose : skipBlanks rest = some '\x7d' :: tail) :
    members? (fuel + 1) depth ((Json.newLine level).map some ++ member text symbols) =
      some ([(Key.written text, item)], tail) := by
  simp only [members?, skipBlanks_member, text?_escape, Option.bind_eq_bind, Option.bind_some,
    skipBlanks_of_not_blank (show isBlank (some ':') = false by decide), value?_space, key_ofChar,
    hvalue, hclose]
  rfl

theorem members?_more (level : Nat) {text : String}
    (hvalue : value? fuel depth symbols = some (item, some ',' :: rest))
    (hrest : members? fuel depth rest = some (members, tail)) :
    members? (fuel + 1) depth ((Json.newLine level).map some ++ member text symbols) =
      some ((Key.written text, item) :: members, tail) := by
  simp only [members?, skipBlanks_member, text?_escape, Option.bind_eq_bind, Option.bind_some,
    skipBlanks_of_not_blank (show isBlank (some ':') = false by decide), value?_space, key_ofChar,
    hvalue, skipBlanks_of_not_blank (show isBlank (some ',') = false by decide), hrest]
  rfl

end Lists

/-! ## Values -/

theorem skipBlanks_prettyItems (level : Nat) (item : Json) (more : List Json)
    (tail : List Symbol) :
    ∃ c symbols, skipBlanks ((Json.prettyItems level (item :: more)).map some ++ tail)
      = some c :: symbols ∧ c ≠ ']' := by
  rcases Json.exists_pretty level item with ⟨c, cs, hpretty, hblank, hc⟩
  cases more with
  | nil =>
      refine ⟨c, cs.map some ++ tail, ?_, hc⟩
      rw [Json.prettyItems, hpretty, List.map_append, List.append_assoc, skipBlanks_newLine,
        List.map_cons, List.cons_append, skipBlanks_of_not_blank hblank]
  | cons next rest =>
      refine ⟨c, (cs ++ ',' :: Json.prettyItems level (next :: rest)).map some ++ tail, ?_, hc⟩
      rw [Json.prettyItems, hpretty]
      · simp only [List.map_append, List.append_assoc, List.map_cons, List.cons_append,
          skipBlanks_newLine, skipBlanks_of_not_blank hblank]
      · exact List.cons_ne_nil _ _

theorem skipBlanks_prettyMembers (level : Nat) (m : String × Json)
    (more : List (String × Json)) (tail : List Symbol) :
    ∃ symbols, skipBlanks ((Json.prettyMembers level (m :: more)).map some ++ tail)
      = some '"' :: symbols := by
  rcases m with ⟨key, value⟩
  cases more with
  | nil => exact ⟨_, by simpa [Json.prettyMembers, member] using skipBlanks_member level key _⟩
  | cons next rest =>
      exact ⟨_, by simpa [Json.prettyMembers, member] using skipBlanks_member level key _⟩

/-- The line break in front of a closing bracket does not extend a number. -/
theorem ends_newLine (level : Nat) (symbols : List Symbol) :
    Ends ((Json.newLine level).map some ++ symbols) :=
  ends_cons (by decide) (by decide) _

theorem skipBlanks_close {c : Char} (hc : isBlank (some c) = false) (level : Nat)
    (rest : List Symbol) :
    skipBlanks ((Json.newLine level).map some ++ some c :: rest) = some c :: rest := by
  rw [skipBlanks_newLine, skipBlanks_of_not_blank hc]

theorem exists_fuel_of_pretty {j : Json} {level fuel : Nat}
    (h : 2 * (j.pretty level).length ≤ fuel) : ∃ k, fuel = k + 1 := by
  rcases Json.exists_pretty level j with ⟨c, more, hpretty, _⟩
  rw [hpretty, List.length_cons] at h
  exact ⟨fuel - 1, by omega⟩

mutual

/-- A written value is read off the front of a text, up to what does not extend
a number. -/
theorem value?_pretty : ∀ (j : Json) (level fuel depth : Nat) (rest : List Symbol),
    2 * (j.pretty level).length ≤ fuel → Ends rest →
      value? fuel depth ((j.pretty level).map some ++ rest) = some (j.reread depth, rest)
  | .null, level, fuel, depth, rest, hfuel, _ => by
      rcases exists_fuel_of_pretty hfuel with ⟨k, rfl⟩
      rw [Json.pretty, Json.reread]
      exact value?_null k depth rest
  | .bool b, level, fuel, depth, rest, hfuel, _ => by
      rcases exists_fuel_of_pretty hfuel with ⟨k, rfl⟩
      rw [Json.pretty, Json.reread]
      exact value?_bool k depth b rest
  | .number n, level, fuel, depth, rest, hfuel, hrest => by
      rcases exists_fuel_of_pretty hfuel with ⟨k, rfl⟩
      rw [Json.pretty, Json.reread]
      exact n.value?_spell hrest k depth
  | .string s, level, fuel, depth, rest, hfuel, _ => by
      rcases exists_fuel_of_pretty hfuel with ⟨k, rfl⟩
      rw [Json.pretty, Json.reread]
      exact value?_quote k depth s rest
  | .array [], level, fuel, depth, rest, hfuel, _ => by
      rcases exists_fuel_of_pretty hfuel with ⟨k, rfl⟩
      simp [Json.pretty, Json.reread, Json.rereadItems, value?, skipBlanks, isBlank]
  | .array (item :: more), level, fuel, depth, rest, hfuel, _ => by
      rcases exists_fuel_of_pretty hfuel with ⟨k, rfl⟩
      rw [Json.pretty_array] at hfuel ⊢
      simp only [List.length_append, List.length_cons, List.length_nil] at hfuel
      -- The bracket pays for the call that the list of items costs more than its text.
      have hitems := items?_pretty (item :: more) (level + 1) k (depth - 1)
        (by omega) (List.cons_ne_nil _ _) (ends_newLine level (some ']' :: rest))
        (skipBlanks_close (by decide) level rest)
      rcases skipBlanks_prettyItems (level + 1) item more
        ((Json.newLine level).map some ++ some ']' :: rest) with ⟨c, symbols, hhead, hc⟩
      rw [Json.reread, ← value?_openArray hhead hc hitems]
      simp
  | .object [], level, fuel, depth, rest, hfuel, _ => by
      rcases exists_fuel_of_pretty hfuel with ⟨k, rfl⟩
      simp [Json.pretty, Json.reread, Json.rereadMembers, value?, skipBlanks, isBlank]
  | .object (m :: more), level, fuel, depth, rest, hfuel, _ => by
      rcases exists_fuel_of_pretty hfuel with ⟨k, rfl⟩
      rw [Json.pretty_object] at hfuel ⊢
      simp only [List.length_append, List.length_cons, List.length_nil] at hfuel
      have hmembers := members?_pretty (m :: more) (level + 1) k (depth - 1)
        (by omega) (List.cons_ne_nil _ _) (ends_newLine level (some '\x7d' :: rest))
        (skipBlanks_close (by decide) level rest)
      rcases skipBlanks_prettyMembers (level + 1) m more
        ((Json.newLine level).map some ++ some '\x7d' :: rest) with ⟨symbols, hhead⟩
      rw [Json.reread, ← value?_openObject hhead (by decide) hmembers]
      simp

/-- Written items are read up to the closing bracket. -/
theorem items?_pretty : ∀ (items : List Json) (level fuel depth : Nat) {close tail : List Symbol},
    2 * (Json.prettyItems level items).length + 1 ≤ fuel → items ≠ [] →
    Ends close → skipBlanks close = some ']' :: tail →
      items? fuel depth ((Json.prettyItems level items).map some ++ close)
        = some (Json.rereadItems depth items, tail)
  | [], _, _, _, _, _, _, hne, _, _ => absurd rfl hne
  | [item], level, fuel, depth, close, tail, hfuel, _, hends, hclose => by
      rcases fuel with _ | k
      · omega
      rw [Json.prettyItems, List.length_append] at hfuel
      have hvalue := value?_pretty item level k depth close (by omega) hends
      rw [Json.rereadItems, Json.rereadItems]
      refine items?_last ?_ hclose
      rw [Json.prettyItems, List.map_append, List.append_assoc, value?_newLine]
      exact hvalue
  | item :: next :: more, level, fuel, depth, close, tail, hfuel, _, hends, hclose => by
      rcases fuel with _ | k
      · omega
      have hpretty : Json.prettyItems level (item :: next :: more) = Json.newLine level ++
          item.pretty level ++ ',' :: Json.prettyItems level (next :: more) := by
        simp [Json.prettyItems]
      rw [hpretty] at hfuel ⊢
      simp only [List.length_append, List.length_cons] at hfuel
      -- A comma ends the item, whatever comes behind it.
      have hvalue := value?_pretty item level k depth
        (some ',' :: ((Json.prettyItems level (next :: more)).map some ++ close))
        (by omega) (ends_cons (by decide) (by decide) _)
      have hrest := items?_pretty (next :: more) level k depth (by omega)
        (List.cons_ne_nil _ _) hends hclose
      rw [Json.rereadItems]
      refine items?_more ?_ hrest
      rw [List.map_append, List.map_append, List.append_assoc, List.append_assoc, value?_newLine]
      exact hvalue

/-- Written members are read up to the closing brace. -/
theorem members?_pretty : ∀ (members : List (String × Json)) (level fuel depth : Nat)
    {close tail : List Symbol},
    2 * (Json.prettyMembers level members).length + 1 ≤ fuel → members ≠ [] →
    Ends close → skipBlanks close = some '\x7d' :: tail →
      members? fuel depth ((Json.prettyMembers level members).map some ++ close)
        = some (Json.rereadMembers depth members, tail)
  | [], _, _, _, _, _, _, hne, _, _ => absurd rfl hne
  | [(key, value)], level, fuel, depth, close, tail, hfuel, _, hends, hclose => by
      rcases fuel with _ | k
      · omega
      simp only [Json.prettyMembers, List.length_append, List.length_cons] at hfuel
      have hvalue := value?_pretty value level k depth close (by omega) hends
      rw [Json.rereadMembers, Json.rereadMembers, ← members?_last level hvalue hclose]
      simp [Json.prettyMembers, member]
  | (key, value) :: next :: more, level, fuel, depth, close, tail, hfuel, _, hends, hclose => by
      rcases fuel with _ | k
      · omega
      have hpretty : Json.prettyMembers level ((key, value) :: next :: more) =
          Json.newLine level ++ Json.quote key ++ ':' :: ' ' :: value.pretty level ++
            ',' :: Json.prettyMembers level (next :: more) := by
        simp [Json.prettyMembers]
      rw [hpretty] at hfuel ⊢
      simp only [List.length_append, List.length_cons] at hfuel
      have hvalue := value?_pretty value level k depth
        (some ',' :: ((Json.prettyMembers level (next :: more)).map some ++ close))
        (by omega) (ends_cons (by decide) (by decide) _)
      have hrest := members?_pretty (next :: more) level k depth (by omega)
        (List.cons_ne_nil _ _) hends hclose
      rw [Json.rereadMembers, ← members?_more level hvalue hrest]
      simp [member]

end

end Scan

/-- What a written value is read back as. -/
theorem Source.parse?_toPrettyText (j : Json) :
    Source.parse? (Symbols.ofString j.toPrettyText) = some (j.reread Source.maxDepth) := by
  have hvalue := Scan.value?_pretty j 0 (2 * ((j.pretty 0).map some).length + 2)
    Source.maxDepth [] (by rw [List.length_map]; omega) (fun c hc => by cases hc)
  rw [List.append_nil] at hvalue
  rw [Source.parse?, Source.parseWithin?, Symbols.ofString, Json.toPrettyText, String.toList_ofList,
    hvalue]
  rfl

end ActionChain
