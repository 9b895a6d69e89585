import ActionChain.Json.Source
import ActionChain.Proofs.Variables.Equality
import ActionChain.Proofs.Variables.Matching

/-!
# Sameness of Trees

When two trees say the same.

Two objects say the same if the same keys are found in both, with values that say the
same; the order in which their members are listed is no part of what they say, and of
several members under one key only the last one is found. Lists are compared place by
place, and numbers by their value as floating-point numbers, so the integer three and
the number 3.0 say the same, and so do the two zeros (`Json.Same`).

A tree that is read again from memory comes out in order and says the same
(`Json.exists_value?_ofJson`). Of trees in order, sameness is what a comparison of their
stored forms goes by, although it looks at the members in the order in which they are
listed (`Json.agrees_stored_iff_same`).

## Main definitions

* `Json.Same`: two trees say the same.

## Theorems

* `Json.Same.refl`, `Json.Same.symm`, `Json.Same.trans`: sameness is an equivalence.
* `Entries.matches_iff_find?`: entries in order match exactly if their look-ups do.
* `Json.agrees_stored_iff_same`: comparing trees in order.
* `Json.exists_value?_ofJson`: reading a tree again.
-/

namespace ActionChain

variable {α β : Type}

/-! ## Look-ups -/

theorem isSome_eq_of_rel {R : α → β → Prop} {o : Option α} {o' : Option β}
    (h : Option.Rel R o o') : o.isSome = o'.isSome := by
  cases h <;> rfl

theorem rel_some_some {R : α → β → Prop} {a : α} {b : β} :
    Option.Rel R (some a) (some b) ↔ R a b :=
  ⟨fun | .some h => h, .some⟩

namespace Entries

/-- In ascending order, what is listed is found. -/
theorem find?_of_mem {es : List (String × α)} (h : Ascending es) {e : String × α}
    (he : e ∈ es) : find? e.1 es = some e.2 := by
  induction es with
  | nil => cases he
  | cons head rest ih =>
      rcases head with ⟨k, v⟩
      rcases List.pairwise_cons.1 h with ⟨hlow, hrest⟩
      rcases List.mem_cons.1 he with rfl | he
      · simp [find?]
      · have hne : e.1 ≠ k := fun heq => Std.lt_irrefl (heq ▸ hlow e he)
        rw [find?, if_neg hne]
        exact ih hrest he

/-- Entries in order under which the same keys are found list the same keys. -/
theorem keys_eq_of_find? {es : List (String × α)} {fs : List (String × β)} (hes : Ascending es)
    (hfs : Ascending fs) (h : ∀ key, (find? key es).isSome = (find? key fs).isSome) :
    es.map Prod.fst = fs.map Prod.fst := by
  -- With the values forgotten, both are one dictionary.
  have hdict : (Dict.mk es hes).map (fun _ => ()) = (Dict.mk fs hfs).map fun _ => () := by
    refine Dict.ext_get? fun key => ?_
    have hkey : (Dict.mk es hes |>.get? key).isSome = (Dict.mk fs hfs |>.get? key).isSome := h key
    rw [Dict.get?_map, Dict.get?_map]
    revert hkey
    cases Dict.get? ⟨es, hes⟩ key <;> cases Dict.get? ⟨fs, hfs⟩ key <;> simp
  have hkeys := congrArg Dict.keys hdict
  rwa [Dict.keys_map, Dict.keys_map] at hkeys

/-- Entries in order match exactly if the same keys are found in both, with values
that do. -/
theorem matches_iff_find? {R : α → β → Prop} {es : List (String × α)} {fs : List (String × β)}
    (hes : Ascending es) (hfs : Ascending fs) :
    Matches R es fs ↔
      (∀ key, (find? key es).isSome = (find? key fs).isSome) ∧
      ∀ key a b, find? key es = some a → find? key fs = some b → R a b := by
  constructor
  · intro h
    refine ⟨fun key => isSome_eq_of_rel (h.find? key), fun key a b ha hb => ?_⟩
    have hab := h.find? key
    rw [ha, hb] at hab
    exact rel_some_some.1 hab
  · rintro ⟨hkeys, hvalues⟩
    have heq := keys_eq_of_find? hes hfs hkeys
    have hvalues' : ∀ e ∈ es, ∀ f ∈ fs, e.1 = f.1 → R e.2 f.2 := by
      intro e he f hf hef
      exact hvalues e.1 e.2 f.2 (find?_of_mem hes he) (hef ▸ find?_of_mem hfs hf)
    clear hes hfs hkeys hvalues
    induction es generalizing fs with
    | nil =>
        cases fs with
        | nil => exact .nil
        | cons f fs => cases heq
    | cons e es ih =>
        cases fs with
        | nil => cases heq
        | cons f fs =>
            rcases List.cons.inj heq with ⟨hkey, hrest⟩
            refine .cons ⟨hkey, hvalues' e List.mem_cons_self f List.mem_cons_self hkey⟩ ?_
            exact ih hrest fun e he f hf =>
              hvalues' e (List.mem_cons_of_mem _ he) f (List.mem_cons_of_mem _ hf)

end Entries

namespace Json

/-- Two trees say the same: texts and truth values are equal, numbers have the same
value as floating-point numbers, lists agree place by place and objects key by key. -/
inductive Same : Json → Json → Prop where
  | null : Same .null .null
  | bool (b : Bool) : Same (.bool b) (.bool b)
  | number {m n : Number} (h : m.toBinary64.Is n) : Same (.number m) (.number n)
  | string (s : String) : Same (.string s) (.string s)
  | array {xs ys : List Json} (hlength : xs.length = ys.length)
      (hitems : ∀ (i : Nat) (x y : Json), xs[i]? = some x → ys[i]? = some y → Same x y) :
      Same (.array xs) (.array ys)
  | object {xs ys : List (String × Json)}
      (hkeys : ∀ key, ((Dict.ofList xs).get? key).isSome = ((Dict.ofList ys).get? key).isSome)
      (hvalues : ∀ key x y, (Dict.ofList xs).get? key = some x →
        (Dict.ofList ys).get? key = some y → Same x y) :
      Same (.object xs) (.object ys)

namespace Same

theorem symm {v w : Json} (h : v.Same w) : w.Same v := by
  induction h with
  | null => exact .null
  | bool b => exact .bool b
  | string s => exact .string s
  | number h =>
      rcases h with ⟨f, f', hm, hn, hvalue⟩
      exact .number ⟨f', f, hn, hm, hvalue.symm⟩
  | array hlength _ ih => exact .array hlength.symm fun i y x hy hx => ih i x y hx hy
  | object hkeys _ ih =>
      exact .object (fun key => (hkeys key).symm) fun key y x hy hx => ih key x y hx hy

theorem trans {u v w : Json} (h : u.Same v) (h' : v.Same w) : u.Same w := by
  induction h generalizing w with
  | number h =>
      cases h' with
      | number h' =>
          rcases h with ⟨f, f', hm, hn, hvalue⟩
          rcases h' with ⟨g, g', hn', hk, hvalue'⟩
          cases hn.symm.trans hn'
          exact .number ⟨f, g', hm, hk, hvalue.trans hvalue'⟩
  | array hlength _ ih =>
      cases h' with
      | @array _ zs hlength' hitems' =>
          refine .array (hlength.trans hlength') fun i x z hx hz => ?_
          have hlt := (List.getElem?_eq_some_iff.1 hx).1
          have hy := List.getElem?_eq_getElem (hlength ▸ hlt)
          exact ih i x _ hx hy (hitems' i _ z hy hz)
  | object hkeys _ ih =>
      cases h' with
      | @object _ zs hkeys' hvalues' =>
          refine .object (fun key => (hkeys key).trans (hkeys' key)) fun key x z hx hz => ?_
          have hsome := hkeys key
          rw [hx, Option.isSome_some] at hsome
          rcases Option.isSome_iff_exists.1 hsome.symm with ⟨y, hy⟩
          exact ih key x y hx hy (hvalues' key y z hy hz)
  | _ => exact h'

end Same

/-! ## Comparing trees in order -/

/-- Lists say the same if their items do, one by one. -/
theorem same_array_iff {xs ys : List Json} :
    Same (.array xs) (.array ys) ↔ List.Forall₂ Same xs ys := by
  rw [List.forall₂_iff_get]
  constructor
  · intro h
    cases h with
    | array hlength hitems =>
        refine ⟨hlength, fun i hx hy => hitems i _ _ ?_ ?_⟩
        · exact List.getElem?_eq_getElem hx
        · exact List.getElem?_eq_getElem hy
  · rintro ⟨hlength, hitems⟩
    refine .array hlength fun i x y hx hy => ?_
    rcases List.getElem?_eq_some_iff.1 hx with ⟨hltx, rfl⟩
    rcases List.getElem?_eq_some_iff.1 hy with ⟨hlty, rfl⟩
    exact hitems i hltx hlty

/-- Objects in order say the same if their members do, one by one. -/
theorem same_object_iff {xs ys : List (String × Json)} (hxs : Entries.Ascending xs)
    (hys : Entries.Ascending ys) :
    Same (.object xs) (.object ys) ↔ Entries.Matches Same xs ys := by
  rw [Entries.matches_iff_find? hxs hys]
  have hx : ∀ key, (Dict.ofList xs).get? key = Entries.find? key xs := fun key =>
    congrArg (Entries.find? key) (Entries.ofList_of_ascending hxs)
  have hy : ∀ key, (Dict.ofList ys).get? key = Entries.find? key ys := fun key =>
    congrArg (Entries.find? key) (Entries.ofList_of_ascending hys)
  constructor
  · intro h
    cases h with
    | object hkeys hvalues =>
        simp only [hx, hy] at hkeys hvalues
        exact ⟨hkeys, hvalues⟩
  · rintro ⟨hkeys, hvalues⟩
    refine .object ?_ ?_
    · simpa only [hx, hy] using hkeys
    · simpa only [hx, hy] using hvalues

/-- The stored forms of two numbers agree if the numbers have the same value. -/
theorem agrees_stored_number_iff (m n : Number) :
    (number m).stored.agrees (number n).stored = true ↔ m.toBinary64.Is n := by
  rcases stored_number m with ⟨x, hm, hx⟩
  rcases stored_number n with ⟨y, hn, hy⟩
  rw [hx, hy, agrees, Number.sameValue, Binary64.Finite.sameValue_iff]
  constructor
  · exact fun h => ⟨x, y, hm, hn, h⟩
  · rintro ⟨f, f', hm', hn', hvalue⟩
    cases hm.symm.trans hm'
    cases hn.symm.trans hn'
    exact hvalue

/-- The stored form of a number agrees with that of no other tree. -/
theorem not_agrees_stored_of_number {w : Json} (hw : ∀ m, w ≠ .number m) (n : Number) :
    (number n).stored.agrees w.stored = false := by
  rcases stored_number n with ⟨x, -, hx⟩
  rw [hx]
  cases w with
  | number m => exact absurd rfl (hw m)
  | _ => simp [agrees]

mutual

/-- The stored forms of trees in order agree exactly if the trees say the same. -/
theorem agrees_stored_iff_same : ∀ {v w : Json}, v.Ordered → w.Ordered →
    (v.stored.agrees w.stored = true ↔ v.Same w)
  | .number m, w, _, _ => by
      by_cases hw : ∃ n, w = .number n
      · rcases hw with ⟨n, rfl⟩
        rw [agrees_stored_number_iff]
        exact ⟨.number, fun | .number h => h⟩
      · rw [not_agrees_stored_of_number (not_exists.1 hw)]
        refine ⟨nofun, fun h => ?_⟩
        cases h with
        | number h => exact absurd ⟨_, rfl⟩ hw
  | .array items, w, hv, hw => by
      rw [stored_array, agrees_array_iff]
      constructor
      · rintro ⟨items', rfl, hagrees⟩
        exact same_array_iff.2 ((agreesItems_stored_iff_same hv hw).1 hagrees)
      · intro h
        cases h with
        | @array _ items' hlength hitems =>
            have hsame := same_array_iff.1 (.array hlength hitems)
            exact ⟨items', rfl, (agreesItems_stored_iff_same hv hw).2 hsame⟩
  | .object members, w, hv, hw => by
      rw [stored_object, agrees_object_iff]
      constructor
      · rintro ⟨members', rfl, hagrees⟩
        refine (same_object_iff hv.1 hw.1).2 ?_
        exact (agreesMembers_stored_iff_same hv.2 hw.2).1 hagrees
      · intro h
        cases h with
        | @object _ members' hkeys hvalues =>
            have hsame := (same_object_iff hv.1 hw.1).1 (.object hkeys hvalues)
            exact ⟨members', rfl, (agreesMembers_stored_iff_same hv.2 hw.2).2 hsame⟩
  | .string s, w, _, _ => by
      rw [stored_string, agrees_string_iff]
      constructor
      · rintro rfl
        exact .string s
      · rintro ⟨⟩
        rfl
  | .null, w, _, _ => by
      have heq : null.stored.agrees w.stored = true ↔ w = .null := by
        cases w <;> simp [agrees, agrees_stored_number]
      rw [heq]
      constructor
      · rintro rfl
        exact .null
      · rintro ⟨⟩
        rfl
  | .bool b, w, _, _ => by
      have heq : (bool b).stored.agrees w.stored = true ↔ .bool b = w := by
        cases w <;> simp [agrees, agrees_stored_number]
      rw [heq]
      constructor
      · rintro rfl
        exact .bool b
      · rintro ⟨⟩
        rfl

theorem agreesItems_stored_iff_same : ∀ {vs ws : List Json}, OrderedItems vs → OrderedItems ws →
    (agreesItems (mapItems (fun n => Value.numberJson n.toBinary64) vs)
        (mapItems (fun n => Value.numberJson n.toBinary64) ws) = true ↔ List.Forall₂ Same vs ws)
  | [], [], _, _ => by simp [mapItems, agreesItems]
  | [], _ :: _, _, _ => by simp [mapItems, agreesItems]
  | _ :: _, [], _, _ => by simp [mapItems, agreesItems]
  | v :: vs, w :: ws, hv, hw => by
      have hhead := agrees_stored_iff_same hv.1 hw.1
      unfold stored at hhead
      simp only [mapItems, agreesItems, Bool.and_eq_true, List.forall₂_cons]
      rw [hhead, agreesItems_stored_iff_same hv.2 hw.2]

theorem agreesMembers_stored_iff_same : ∀ {vs ws : List (String × Json)}, OrderedMembers vs →
    OrderedMembers ws →
    (agreesMembers (mapMembers (fun n => Value.numberJson n.toBinary64) vs)
        (mapMembers (fun n => Value.numberJson n.toBinary64) ws) = true ↔
      Entries.Matches Same vs ws)
  | [], [], _, _ => by simp [mapMembers, agreesMembers, Entries.Matches]
  | [], _ :: _, _, _ => by simp [mapMembers, agreesMembers, Entries.Matches]
  | _ :: _, [], _, _ => by simp [mapMembers, agreesMembers, Entries.Matches]
  | (key, v) :: vs, (key', w) :: ws, hv, hw => by
      have hhead := agrees_stored_iff_same hv.1 hw.1
      have hrest := agreesMembers_stored_iff_same hv.2 hw.2
      unfold stored at hhead
      unfold Entries.Matches at hrest ⊢
      simp only [mapMembers, agreesMembers, Bool.and_eq_true, beq_iff_eq, List.forall₂_cons]
      rw [hhead, hrest]

end

/-! ## Reading a tree again -/

/-- Bringing an object into order leaves its look-ups alone. -/
theorem same_object_ofList {xs ys : List (String × Json)} (h : Entries.Matches Same xs ys) :
    Same (.object xs) (.object (Entries.ofList ys)) := by
  have hrel : ∀ key, Option.Rel Same ((Dict.ofList xs).get? key) ((Dict.ofList ys).get? key) :=
    fun key => h.ofList.find? key
  have hagain : ∀ key, (Dict.ofList (Entries.ofList ys)).get? key = (Dict.ofList ys).get? key :=
    fun key => congrArg (Entries.find? key)
      (Entries.ofList_of_ascending (Entries.ascending_ofList ys))
  refine .object (fun key => ?_) fun key x y hx hy => ?_
  · rw [hagain key]
    exact isSome_eq_of_rel (hrel key)
  · rw [hagain key] at hy
    have hxy := hrel key
    rw [hx, hy] at hxy
    exact rel_some_some.1 hxy

mutual

/-- A tree that is read again says the same. -/
theorem exists_value?_ofJson : ∀ j : Json,
    ∃ j', (Source.ofJson j).value? = some j' ∧ j.Same j'
  | .null => ⟨_, by simp [Source.ofJson, Source.value?], .null⟩
  | .bool b => ⟨_, by simp [Source.ofJson, Source.value?], .bool b⟩
  | .string s => ⟨_, by simp [Source.ofJson, Source.value?], .string s⟩
  | .number n => by
      rcases n.exists_finite with ⟨x, hx⟩
      exact ⟨_, by simp [Source.ofJson, Source.value?], .number ⟨x, x, hx, hx, rfl⟩⟩
  | .array items => by
      rcases exists_values?_ofItems items with ⟨items', hread, hsame⟩
      exact ⟨.array items', by simp [Source.ofJson, Source.value?, hread], same_array_iff.2 hsame⟩
  | .object members => by
      rcases exists_memberValues?_ofMembers members with ⟨members', hread, hsame⟩
      exact ⟨.object (Entries.ofList members'), by simp [Source.ofJson, Source.value?, hread],
        same_object_ofList hsame⟩

theorem exists_values?_ofItems : ∀ items : List Json,
    ∃ items', Source.values? (Source.ofItems items) = some items' ∧ List.Forall₂ Same items items'
  | [] => ⟨[], by simp [Source.ofItems, Source.values?], .nil⟩
  | item :: rest => by
      rcases exists_value?_ofJson item with ⟨item', hitem, hsame⟩
      rcases exists_values?_ofItems rest with ⟨rest', hrest, hsame'⟩
      exact ⟨item' :: rest', by simp [Source.ofItems, Source.values?, hitem, hrest],
        .cons hsame hsame'⟩

theorem exists_memberValues?_ofMembers : ∀ members : List (String × Json),
    ∃ members', Source.memberValues? (Source.ofMembers members) = some members' ∧
      Entries.Matches Same members members'
  | [] => ⟨[], by simp [Source.ofMembers, Source.memberValues?], .nil⟩
  | (key, j) :: rest => by
      rcases exists_value?_ofJson j with ⟨j', hj, hsame⟩
      rcases exists_memberValues?_ofMembers rest with ⟨rest', hrest, hsame'⟩
      exact ⟨(key, j') :: rest', by simp [Source.ofMembers, Source.memberValues?, hj, hrest],
        .cons ⟨rfl, hsame⟩ hsame'⟩

end

theorem Same.refl (j : Json) : j.Same j := by
  rcases exists_value?_ofJson j with ⟨_, -, h⟩
  exact h.trans h.symm

end Json

end ActionChain
