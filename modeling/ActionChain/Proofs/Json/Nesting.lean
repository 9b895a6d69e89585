import ActionChain.Json.Decode
import ActionChain.Proofs.Json.Reread

/-!
# Nesting

How deep a value is nested, from reading it to writing it and reading it again.

The reader opens arrays and objects up to a depth and marks what lies deeper as
unreadable. So a source, wherever it can be read, is no deeper than that, and
neither is a value that somebody asked it for. Writing neither adds nor removes
a level. A value that was read at some depth can therefore be written and read
again at the same depth, and then comes back as it was if its numbers do
(`Number.Durable`). If one of them does not, what comes back is another value
or none.

## Main definitions

* `Source.Shallow`: a source no deeper than the reader allows.
* `Json.Fits`: a value no deeper than that.
* `Json.numbers`: the numbers a value holds.
* `Number.Durable`: a number that its own characters are read as.

## Theorems

* `Scan.shallow_of_value?`: what the reader returns is shallow.
* `Source.fits_of_value?`: a value of a shallow source fits.
* `Json.value?_reread_iff`: a value that fits is read back as itself exactly if
  its numbers are.
-/

namespace ActionChain

namespace Source

mutual

/-- Nowhere readable below `depth` arrays and objects. -/
def Shallow (depth : Nat) : Source → Prop
  | .array items => 0 < depth ∧ ShallowItems (depth - 1) items
  | .object members => 0 < depth ∧ ShallowMembers (depth - 1) members
  | _ => True

/-- Every item is shallow. -/
def ShallowItems (depth : Nat) : List Source → Prop
  | [] => True
  | item :: rest => Shallow depth item ∧ ShallowItems depth rest

/-- The source of every member is shallow. -/
def ShallowMembers (depth : Nat) : List (Key × Source) → Prop
  | [] => True
  | (_, source) :: rest => Shallow depth source ∧ ShallowMembers depth rest

end

theorem shallowItems_iff {depth : Nat} {items : List Source} :
    ShallowItems depth items ↔ ∀ s ∈ items, s.Shallow depth := by
  induction items with
  | nil => simp [ShallowItems]
  | cons item rest ih => simp [ShallowItems, ih]

theorem shallowMembers_iff {depth : Nat} {members : List (Key × Source)} :
    ShallowMembers depth members ↔ ∀ m ∈ members, m.2.Shallow depth := by
  induction members with
  | nil => simp [ShallowMembers]
  | cons m rest ih => simp [ShallowMembers, ih]

end Source

namespace Json

mutual

/-- Nested at most `depth` deep. -/
def Fits (depth : Nat) : Json → Prop
  | .array items => 0 < depth ∧ FitsItems (depth - 1) items
  | .object members => 0 < depth ∧ FitsMembers (depth - 1) members
  | _ => True

/-- Every item fits. -/
def FitsItems (depth : Nat) : List Json → Prop
  | [] => True
  | item :: rest => Fits depth item ∧ FitsItems depth rest

/-- The value of every member fits. -/
def FitsMembers (depth : Nat) : List (String × Json) → Prop
  | [] => True
  | (_, value) :: rest => Fits depth value ∧ FitsMembers depth rest

end

theorem fitsItems_iff {depth : Nat} {items : List Json} :
    FitsItems depth items ↔ ∀ j ∈ items, j.Fits depth := by
  induction items with
  | nil => simp [FitsItems]
  | cons item rest ih => simp [FitsItems, ih]

theorem fitsMembers_iff {depth : Nat} {members : List (String × Json)} :
    FitsMembers depth members ↔ ∀ e ∈ members, e.2.Fits depth := by
  induction members with
  | nil => simp [FitsMembers]
  | cons head rest ih => simp [FitsMembers, ih]

mutual

/-- The numbers a value holds, in the order in which they are written. -/
def numbers : Json → List Number
  | .number n => [n]
  | .array items => numbersOfItems items
  | .object members => numbersOfMembers members
  | _ => []

/-- The numbers of all items. -/
def numbersOfItems : List Json → List Number
  | [] => []
  | item :: rest => numbers item ++ numbersOfItems rest

/-- The numbers of the values of all members. -/
def numbersOfMembers : List (String × Json) → List Number
  | [] => []
  | (_, value) :: rest => numbers value ++ numbersOfMembers rest

end

end Json

/-! ## Reading -/

namespace Scan

theorem shallow_nested {depth : Nat} {s : Source} (h : 0 < depth → s.Shallow depth) :
    (nested depth s).Shallow depth := by
  unfold nested
  by_cases hdepth : depth = 0
  · rw [if_pos hdepth]
    trivial
  · rw [if_neg hdepth]
    exact h (Nat.pos_of_ne_zero hdepth)

theorem shallow_textSource (depth : Nat) (pieces : List Piece) :
    (textSource pieces).Shallow depth := by
  unfold textSource
  cases Piece.chars? pieces <;> trivial

theorem shallow_numberSource (depth : Nat) (n : Option Number) :
    (numberSource n).Shallow depth := by
  cases n <;> trivial

/-- What the reader returns is shallow. The induction is on the fuel, which all
three scanners spend. -/
theorem shallow_scan (fuel : Nat) :
    (∀ {depth symbols s rest}, value? fuel depth symbols = some (s, rest) → s.Shallow depth) ∧
    (∀ {depth symbols items rest}, items? fuel depth symbols = some (items, rest) →
      Source.ShallowItems depth items) ∧
    (∀ {depth symbols members rest}, members? fuel depth symbols = some (members, rest) →
      Source.ShallowMembers depth members) := by
  induction fuel with
  | zero => exact ⟨nofun, nofun, nofun⟩
  | succ fuel ih =>
      rcases ih with ⟨ihvalue, ihitems, ihmembers⟩
      refine ⟨?_, ?_, ?_⟩
      · intro depth symbols s rest h
        rw [value?] at h
        split at h
        · -- A bracket takes a level, and what stands inside has one less.
          split at h
          · cases h
            exact shallow_nested fun hdepth => ⟨hdepth, trivial⟩
          · simp only [Option.bind_eq_bind, Option.bind_eq_some_iff] at h
            rcases h with ⟨⟨items, tail⟩, hitems, h⟩
            cases h
            exact shallow_nested fun hdepth => ⟨hdepth, ihitems hitems⟩
        · split at h
          · cases h
            exact shallow_nested fun hdepth => ⟨hdepth, trivial⟩
          · simp only [Option.bind_eq_bind, Option.bind_eq_some_iff] at h
            rcases h with ⟨⟨members, tail⟩, hmembers, h⟩
            cases h
            exact shallow_nested fun hdepth => ⟨hdepth, ihmembers hmembers⟩
        -- Texts, words and numbers open nothing.
        all_goals
          simp only [Option.bind_eq_bind, Option.bind_eq_some_iff] at h
          rcases h with ⟨found, -, h⟩
          cases h
        · exact shallow_textSource depth found.1
        · trivial
        · trivial
        · trivial
        · exact shallow_numberSource depth found.1
        · exact shallow_numberSource depth found.1
      · intro depth symbols items rest h
        simp only [items?, Option.bind_eq_bind, Option.bind_eq_some_iff] at h
        rcases h with ⟨⟨item, tail⟩, hitem, h⟩
        split at h
        · simp only [Option.bind_eq_some_iff] at h
          rcases h with ⟨⟨more, tail'⟩, hmore, h⟩
          cases h
          exact ⟨ihvalue hitem, ihitems hmore⟩
        · cases h
          exact ⟨ihvalue hitem, trivial⟩
        · cases h
      · intro depth symbols members rest h
        rw [members?] at h
        split at h
        · simp only [Option.bind_eq_bind, Option.bind_eq_some_iff] at h
          rcases h with ⟨⟨pieces, tail⟩, -, h⟩
          split at h
          · simp only [Option.bind_eq_some_iff] at h
            rcases h with ⟨⟨value, tail'⟩, hvalue, h⟩
            split at h
            · simp only [Option.bind_eq_some_iff] at h
              rcases h with ⟨⟨more, tail''⟩, hmore, h⟩
              cases h
              exact ⟨ihvalue hvalue, ihmembers hmore⟩
            · cases h
              exact ⟨ihvalue hvalue, trivial⟩
            · cases h
          · cases h
        · cases h

end Scan

namespace Source

theorem shallow_of_parse? {symbols : List Symbol} {s : Source} (h : parse? symbols = some s) :
    s.Shallow maxDepth := by
  simp only [parse?, parseWithin?, Option.bind_eq_bind, Option.bind_eq_some_iff] at h
  rcases h with ⟨⟨found, rest⟩, hfound, h⟩
  split at h
  · cases h
    exact (Scan.shallow_scan _).1 hfound
  · cases h

mutual

/-- A value of a shallow source fits. -/
theorem fits_of_value? : ∀ {s : Source} {j : Json} {depth : Nat}, s.Shallow depth →
    s.value? = some j → j.Fits depth
  | .null, _, _, _, h => by cases h; trivial
  | .bool _, _, _, _, h => by cases h; trivial
  | .number _, _, _, _, h => by cases h; trivial
  | .string _, _, _, _, h => by cases h; trivial
  | .array items, _, _, hs, h => by
      simp only [value?, Option.map_eq_some_iff] at h
      rcases h with ⟨values, hvalues, rfl⟩
      exact ⟨hs.1, fitsItems_of_values? hs.2 hvalues⟩
  | .object members, _, _, hs, h => by
      simp only [value?, Option.map_eq_some_iff] at h
      rcases h with ⟨values, hvalues, rfl⟩
      refine ⟨hs.1, Json.fitsMembers_iff.2 fun e he => ?_⟩
      -- Putting members in order adds none.
      exact Json.fitsMembers_iff.1 (fitsMembers_of_memberValues? hs.2 hvalues) e
        (Entries.mem_of_mem_ofList he)

theorem fitsItems_of_values? : ∀ {items : List Source} {values : List Json} {depth : Nat},
    ShallowItems depth items → values? items = some values → Json.FitsItems depth values
  | [], _, _, _, h => by cases h; trivial
  | item :: rest, _, _, hs, h => by
      simp only [values?, Option.bind_eq_bind, Option.bind_eq_some_iff] at h
      rcases h with ⟨value, hvalue, others, hothers, h⟩
      cases h
      exact ⟨fits_of_value? hs.1 hvalue, fitsItems_of_values? hs.2 hothers⟩

theorem fitsMembers_of_memberValues? : ∀ {members : List (Key × Source)}
    {values : List (String × Json)} {depth : Nat}, ShallowMembers depth members →
    memberValues? members = some values → Json.FitsMembers depth values
  | [], _, _, _, h => by cases h; trivial
  | (key, source) :: rest, _, _, hs, h => by
      simp only [memberValues?, Option.bind_eq_bind, Option.bind_eq_some_iff] at h
      rcases h with ⟨text, -, value, hvalue, others, hothers, h⟩
      cases h
      exact ⟨fits_of_value? hs.1 hvalue, fitsMembers_of_memberValues? hs.2 hothers⟩

end

theorem mem_of_readableKeys? {members : List (Key × Source)}
    {readable : List (String × Source)} (h : readableKeys? members = some readable)
    {m : String × Source} (hm : m ∈ readable) : ∃ k ∈ members, k.2 = m.2 := by
  induction members generalizing readable with
  | nil =>
      cases h
      exact absurd hm List.not_mem_nil
  | cons head rest ih =>
      simp only [readableKeys?, Option.bind_eq_bind, Option.bind_eq_some_iff] at h
      rcases h with ⟨text, -, others, hothers, h⟩
      cases h
      rcases List.mem_cons.1 hm with rfl | hm
      · exact ⟨head, List.mem_cons_self, rfl⟩
      · rcases ih hothers hm with ⟨k, hk, heq⟩
        exact ⟨k, List.mem_cons_of_mem _ hk, heq⟩

/-- The fields of a shallow record are shallow, one level further in. -/
theorem shallow_of_record? {names : List String} {s : Source} {field : Fields} {depth : Nat}
    (hs : s.Shallow depth) (h : s.record? names = some field) {name : String} {source : Source}
    (hfield : field name = some source) : source.Shallow (depth - 1) := by
  cases s with
  | object members =>
      simp only [record?, Option.bind_eq_bind, Option.bind_eq_some_iff] at h
      rcases h with ⟨readable, hreadable, h⟩
      split at h
      · cases h
        rcases mem_of_readableKeys? hreadable (Entries.mem_of_find?_eq_some hfield) with
          ⟨k, hk, heq⟩
        have hshallow := shallowMembers_iff.1 hs.2 k hk
        rwa [heq] at hshallow
      · cases h
  | array items =>
      simp only [record?] at h
      split at h
      · cases h
        have hitem := (List.of_mem_zip (Entries.mem_of_find?_eq_some hfield)).2
        exact shallowItems_iff.1 hs.2 _ hitem
      · cases h
  | _ => cases h

end Source

/-! ## Writing and reading again -/

/-- The number of a source that is one. -/
def Source.number? : Source → Option Number
  | .number n => some n
  | _ => none

namespace Number

/-- A number that its own characters are read as. -/
def Durable (n : Number) : Prop := n.source = .number n

theorem number?_source_iff (n : Number) : n.source.number? = some n ↔ n.Durable := by
  unfold Durable
  cases n.source <;> simp [Source.number?]

instance : DecidablePred Durable := fun n => decidable_of_iff _ n.number?_source_iff

theorem durable_int (i : Int) (h : Number.InRange i) : (Number.int i h).Durable :=
  Number.source_int i h

theorem value?_source_iff (n : Number) : n.source.value? = some (.number n) ↔ n.Durable := by
  unfold Durable
  cases n.source <;> simp [Source.value?]

end Number

namespace Json

/-- The keys of members are read back, whatever becomes of their values. -/
theorem keys_of_memberValues? {members values : List (String × Json)} {depth : Nat}
    (h : Source.memberValues? (rereadMembers depth members) = some values) :
    values.map Prod.fst = members.map Prod.fst := by
  induction members generalizing values with
  | nil =>
      cases h
      rfl
  | cons head rest ih =>
      simp only [rereadMembers, Source.memberValues?, Key.written, Option.bind_eq_bind,
        Option.bind_some, Option.bind_eq_some_iff] at h
      rcases h with ⟨value, -, others, hothers, h⟩
      cases h
      rw [List.map_cons, List.map_cons, ih hothers]

mutual

/-- A value that fits is read back as itself exactly if its numbers are. -/
theorem value?_reread_iff : ∀ {j : Json} {depth : Nat}, j.Fits depth → j.Ordered →
    ((j.reread depth).value? = some j ↔ ∀ n ∈ j.numbers, n.Durable)
  | .null, _, _, _ => by simp [reread, Source.value?, numbers]
  | .bool _, _, _, _ => by simp [reread, Source.value?, numbers]
  | .number n, _, _, _ => by
      rw [reread, n.value?_source_iff, numbers]
      exact ⟨fun h m hm => List.mem_singleton.1 hm ▸ h, fun h => h n List.mem_cons_self⟩
  | .string _, _, _, _ => by simp [reread, Source.value?, numbers]
  | .array items, depth, hfits, hordered => by
      have hitems := values?_reread_iff hfits.2 hordered
      rw [reread, Scan.nested, if_neg (Nat.ne_of_gt hfits.1), Source.value?, numbers, ← hitems]
      simp only [Option.map_eq_some_iff, Json.array.injEq, exists_eq_right]
  | .object members, depth, hfits, hordered => by
      have hmembers := memberValues?_reread_iff hfits.2 hordered.2
      rw [reread, Scan.nested, if_neg (Nat.ne_of_gt hfits.1), Source.value?, numbers, ← hmembers]
      simp only [Option.map_eq_some_iff, Json.object.injEq]
      constructor
      · rintro ⟨values, hvalues, heq⟩
        -- Keys that come back are in order, so putting them in order changes nothing.
        have hascending : Entries.Ascending values := by
          rw [ascending_iff_keys, keys_of_memberValues? hvalues, ← ascending_iff_keys]
          exact hordered.1
        rw [hvalues, ← heq, Entries.ofList_of_ascending hascending]
      · exact fun h => ⟨members, h, Entries.ofList_of_ascending hordered.1⟩

theorem values?_reread_iff : ∀ {items : List Json} {depth : Nat}, FitsItems depth items →
    OrderedItems items →
    (Source.values? (rereadItems depth items) = some items ↔
      ∀ n ∈ numbersOfItems items, n.Durable)
  | [], _, _, _ => by simp [rereadItems, Source.values?, numbersOfItems]
  | item :: rest, depth, hfits, hordered => by
      have hitem := value?_reread_iff hfits.1 hordered.1
      have hrest := values?_reread_iff hfits.2 hordered.2
      rw [rereadItems, Source.values?, numbersOfItems, List.forall_mem_append, ← hitem, ← hrest]
      simp only [Option.bind_eq_bind, Option.bind_eq_some_iff, Option.pure_def, Option.some.injEq,
        List.cons.injEq]
      constructor
      · rintro ⟨value, hvalue, values, hvalues, rfl, rfl⟩
        exact ⟨hvalue, hvalues⟩
      · exact fun h => ⟨item, h.1, rest, h.2, rfl, rfl⟩

theorem memberValues?_reread_iff : ∀ {members : List (String × Json)} {depth : Nat},
    FitsMembers depth members → OrderedMembers members →
    (Source.memberValues? (rereadMembers depth members) = some members ↔
      ∀ n ∈ numbersOfMembers members, n.Durable)
  | [], _, _, _ => by simp [rereadMembers, Source.memberValues?, numbersOfMembers]
  | (key, value) :: rest, depth, hfits, hordered => by
      have hvalue := value?_reread_iff hfits.1 hordered.1
      have hrest := memberValues?_reread_iff hfits.2 hordered.2
      rw [rereadMembers, Source.memberValues?, numbersOfMembers, List.forall_mem_append, ← hvalue,
        ← hrest]
      simp only [Key.written, Option.bind_eq_bind, Option.bind_some, Option.bind_eq_some_iff,
        Option.pure_def, Option.some.injEq, List.cons.injEq, Prod.mk.injEq, true_and]
      constructor
      · rintro ⟨value, hvalue, values, hvalues, rfl, rfl⟩
        exact ⟨hvalue, hvalues⟩
      · exact fun h => ⟨value, h.1, rest, h.2, rfl, rfl⟩

end

end Json

end ActionChain
