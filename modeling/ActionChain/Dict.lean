/-!
# Dictionaries

A dictionary lists its entries in ascending order of their keys, each key
once. The order is part of what a dictionary is: it decides how roots are
numbered, in which order fields are imported and how every file is written,
so it is kept in the type rather than restored by whoever prints. Two
dictionaries with the same look-ups are therefore equal (`Dict.ext_get?`),
which is what lets a round trip through a file be an equation.

The list operations stand on their own as `Entries`, because a free-form JSON
object is a plain list of members that obeys the same discipline without
carrying the proof.

## Main definitions

* `Entries.Ascending`: each key is below every later one.
* `Entries.find?`, `Entries.insert`, `Entries.erase`: the operations on lists.
* `Dict`: an ascending list of entries.
* `Dict.get?`, `Dict.insert`, `Dict.erase`, `Dict.map`: the operations.

## Theorems

* `Entries.Ascending.insert`, `Entries.Ascending.erase`: order is kept.
* `Entries.ofList_of_ascending`: a list in order is its own dictionary order.
* `Dict.get?_insert`, `Dict.get?_erase`: what each operation does to look-ups.
* `Dict.ext_get?`: a dictionary is determined by its look-ups.
-/

namespace ActionChain

variable {κ α β : Type}

namespace Entries

/-- Entries in ascending order of their keys, which makes the keys distinct. -/
def Ascending [LT κ] (entries : List (κ × α)) : Prop :=
  entries.Pairwise fun a b => a.1 < b.1

/-- The value of the first entry under `key`. -/
def find? [DecidableEq κ] (key : κ) : List (κ × α) → Option α
  | [] => none
  | (k, v) :: rest => if key = k then some v else find? key rest

/-- The entries with `key` bound to `value`: an entry under `key` is replaced
where it stands, a new one goes before the first greater key. -/
def insert [DecidableEq κ] [LT κ] [DecidableLT κ] (key : κ) (value : α) :
    List (κ × α) → List (κ × α)
  | [] => [(key, value)]
  | (k, v) :: rest =>
    if key = k then (key, value) :: rest
    else if key < k then (key, value) :: (k, v) :: rest
    else (k, v) :: insert key value rest

/-- The entries without the first one under `key`. -/
def erase [DecidableEq κ] (key : κ) : List (κ × α) → List (κ × α)
  | [] => []
  | (k, v) :: rest => if key = k then rest else (k, v) :: erase key rest

/-- The dictionary order of a list in which later entries overrule earlier
ones under the same key. -/
def ofList [DecidableEq κ] [LT κ] [DecidableLT κ] (entries : List (κ × α)) : List (κ × α) :=
  entries.foldl (fun acc e => insert e.1 e.2 acc) []

theorem mem_insert [DecidableEq κ] [LT κ] [DecidableLT κ] {key : κ} {value : α}
    {entries : List (κ × α)} {e : κ × α} (h : e ∈ insert key value entries) :
    e = (key, value) ∨ e ∈ entries := by
  induction entries with
  | nil => simpa [insert] using h
  | cons head rest ih =>
    obtain ⟨k, v⟩ := head
    simp only [insert] at h
    split at h
    · simp only [List.mem_cons] at h ⊢
      rcases h with h | h
      · exact .inl h
      · exact .inr (.inr h)
    · split at h
      · simpa [List.mem_cons] using h
      · simp only [List.mem_cons] at h ⊢
        rcases h with h | h
        · exact .inr (.inl h)
        · exact (ih h).imp_right .inr

/-- The dictionary order of a list has no entries but those listed. -/
theorem mem_of_mem_ofList [DecidableEq κ] [LT κ] [DecidableLT κ] {entries : List (κ × α)}
    {e : κ × α} (h : e ∈ ofList entries) : e ∈ entries := by
  -- Insertion adds the entry inserted and no other.
  have hfold : ∀ entries acc : List (κ × α),
      e ∈ entries.foldl (fun acc e => insert e.1 e.2 acc) acc → e ∈ acc ∨ e ∈ entries := by
    intro entries
    induction entries with
    | nil => exact fun acc h => .inl h
    | cons head rest ih =>
      intro acc h
      rcases ih _ h with hacc | hrest
      · rcases mem_insert hacc with hhead | hacc
        · exact .inr (hhead ▸ List.mem_cons_self)
        · exact .inl hacc
      · exact .inr (List.mem_cons_of_mem _ hrest)
  exact (hfold entries [] h).resolve_left List.not_mem_nil

theorem mem_of_mem_erase [DecidableEq κ] {key : κ} {entries : List (κ × α)} {e : κ × α}
    (h : e ∈ erase key entries) : e ∈ entries := by
  induction entries with
  | nil => simp [erase] at h
  | cons head rest ih =>
    obtain ⟨k, v⟩ := head
    simp only [erase] at h
    split at h
    · exact List.mem_cons_of_mem _ h
    · simp only [List.mem_cons] at h ⊢
      exact h.imp_right ih

section Ordered

variable [DecidableEq κ] [LE κ] [LT κ] [DecidableLT κ] [Std.IsLinearOrder κ]
  [Std.LawfulOrderLT κ]

omit [DecidableEq κ] [DecidableLT κ] in
theorem lt_of_ne_of_not_lt {a b : κ} (hne : a ≠ b) (hlt : ¬ a < b) : b < a := by
  refine Classical.byContradiction fun h => hne ?_
  exact Std.le_antisymm (Std.not_lt.1 h) (Std.not_lt.1 hlt)

/-- Inserting keeps the order. -/
theorem Ascending.insert {entries : List (κ × α)} (h : Ascending entries) (key : κ) (value : α) :
    Ascending (Entries.insert key value entries) := by
  induction entries with
  | nil => simp [Entries.insert, Ascending]
  | cons head rest ih =>
    obtain ⟨k, v⟩ := head
    obtain ⟨hlow, hrest⟩ := List.pairwise_cons.1 h
    simp only [Entries.insert]
    split
    · rename_i heq
      subst heq
      exact List.pairwise_cons.2 ⟨hlow, hrest⟩
    · rename_i hne
      split
      · rename_i hlt
        refine List.pairwise_cons.2 ⟨?_, h⟩
        intro e he
        rcases List.mem_cons.1 he with rfl | he
        · exact hlt
        · exact Std.lt_trans hlt (hlow e he)
      · rename_i hlt
        refine List.pairwise_cons.2 ⟨?_, ih hrest⟩
        intro e he
        rcases mem_insert he with rfl | he
        · exact lt_of_ne_of_not_lt hne hlt
        · exact hlow e he

omit [LE κ] [DecidableLT κ] [Std.IsLinearOrder κ] [Std.LawfulOrderLT κ] in
/-- Erasing keeps the order. -/
theorem Ascending.erase {entries : List (κ × α)} (h : Ascending entries) (key : κ) :
    Ascending (Entries.erase key entries) := by
  induction entries with
  | nil => simp [Entries.erase, Ascending]
  | cons head rest ih =>
    obtain ⟨k, v⟩ := head
    obtain ⟨hlow, hrest⟩ := List.pairwise_cons.1 h
    simp only [Entries.erase]
    split
    · exact hrest
    · exact List.pairwise_cons.2 ⟨fun e he => hlow e (mem_of_mem_erase he), ih hrest⟩

/-- A list built by insertion is in order. -/
theorem ascending_ofList (entries : List (κ × α)) : Ascending (ofList entries) := by
  suffices ∀ acc : List (κ × α), Ascending acc →
      Ascending (entries.foldl (fun acc e => Entries.insert e.1 e.2 acc) acc) from
    this [] List.Pairwise.nil
  induction entries with
  | nil => exact fun _ h => h
  | cons e rest ih => exact fun acc h => ih _ (h.insert e.1 e.2)

/-- A list already in ascending order is its own dictionary order. -/
theorem ofList_of_ascending {entries : List (κ × α)} (h : Ascending entries) :
    ofList entries = entries := by
  -- A key above all others is inserted at the end.
  have append : ∀ (acc : List (κ × α)) (e : κ × α),
      (∀ x ∈ acc, x.1 < e.1) → Entries.insert e.1 e.2 acc = acc ++ [e] := by
    intro acc e
    induction acc with
    | nil => exact fun _ => rfl
    | cons head rest ih =>
      intro hlow
      obtain ⟨k, v⟩ := head
      have hk : k < e.1 := hlow _ List.mem_cons_self
      simp only [Entries.insert]
      rw [if_neg (fun heq => Std.lt_irrefl (heq ▸ hk)),
        if_neg (fun hlt => Std.lt_irrefl (Std.lt_trans hk hlt)),
        ih fun x hx => hlow x (List.mem_cons_of_mem _ hx)]
      rfl
  -- So entries in order build up from the left, behind whatever precedes them.
  suffices ∀ acc : List (κ × α), (∀ x ∈ acc, ∀ e ∈ entries, x.1 < e.1) →
      entries.foldl (fun acc e => Entries.insert e.1 e.2 acc) acc = acc ++ entries by
    simpa [ofList] using this [] (by simp)
  induction entries with
  | nil => simp
  | cons e rest ih =>
    intro acc hacc
    obtain ⟨hlow, hrest⟩ := List.pairwise_cons.1 h
    simp only [List.foldl_cons]
    rw [append acc e fun x hx => hacc x hx e List.mem_cons_self, ih hrest]
    · simp
    · intro x hx y hy
      rcases List.mem_append.1 hx with hx | hx
      · exact hacc x hx y (List.mem_cons_of_mem _ hy)
      · obtain rfl := List.mem_singleton.1 hx
        exact hlow y hy

end Ordered

/-- A key that is not listed is not found. -/
theorem find?_eq_none [DecidableEq κ] {key : κ} {entries : List (κ × α)}
    (h : ∀ e ∈ entries, key ≠ e.1) : find? key entries = none := by
  induction entries with
  | nil => rfl
  | cons head rest ih =>
    obtain ⟨k, v⟩ := head
    simp only [find?]
    rw [if_neg (h _ List.mem_cons_self)]
    exact ih fun e he => h e (List.mem_cons_of_mem _ he)

theorem find?_map [DecidableEq κ] (f : α → β) (key : κ) (entries : List (κ × α)) :
    find? key (entries.map fun e => (e.1, f e.2)) = (find? key entries).map f := by
  induction entries with
  | nil => rfl
  | cons head rest ih =>
    obtain ⟨k, v⟩ := head
    simp only [List.map_cons, find?]
    split <;> simp_all

theorem find?_insert [DecidableEq κ] [LT κ] [DecidableLT κ] (key : κ) (value : α) (k : κ)
    (entries : List (κ × α)) :
    find? k (insert key value entries) = if k = key then some value else find? k entries := by
  induction entries with
  | nil => simp [insert, find?]
  | cons head rest ih =>
    obtain ⟨k', v⟩ := head
    simp only [insert]
    split
    · rename_i heq
      subst heq
      simp only [find?]
      split <;> simp_all
    · split
      · simp only [find?]
      · simp only [find?, ih]
        split <;> split <;> simp_all

theorem mem_of_find?_ne_none [DecidableEq κ] {key : κ} {entries : List (κ × α)}
    (h : find? key entries ≠ none) : key ∈ entries.map Prod.fst := by
  refine Decidable.byContradiction fun hnone => h (find?_eq_none ?_)
  exact fun e he heq => hnone (heq ▸ List.mem_map_of_mem he)

theorem mem_of_find?_eq_some [DecidableEq κ] {key : κ} {value : α} {entries : List (κ × α)}
    (h : find? key entries = some value) : (key, value) ∈ entries := by
  induction entries with
  | nil => cases h
  | cons head rest ih =>
    obtain ⟨k, v⟩ := head
    simp only [find?] at h
    split at h
    · rename_i heq
      cases h
      exact heq ▸ List.mem_cons_self
    · exact List.mem_cons_of_mem _ (ih h)

/-- Every key of a list is found in its dictionary order. -/
theorem find?_ofList_ne_none [DecidableEq κ] [LT κ] [DecidableLT κ] {entries : List (κ × α)}
    {e : κ × α} (h : e ∈ entries) : find? e.1 (ofList entries) ≠ none := by
  -- What has been inserted once stays, so the fold may start from anywhere.
  have hfold : ∀ (entries acc : List (κ × α)), e ∈ entries ∨ find? e.1 acc ≠ none →
      find? e.1 (entries.foldl (fun acc e => insert e.1 e.2 acc) acc) ≠ none := by
    intro entries
    induction entries with
    | nil => exact fun acc h => h.elim nofun id
    | cons head rest ih =>
      intro acc h
      refine ih _ ?_
      rw [find?_insert]
      split
      · exact .inr nofun
      · rename_i hne
        refine h.imp (fun h => ?_) id
        exact (List.mem_cons.1 h).resolve_left fun heq => hne (congrArg Prod.fst heq)
  exact hfold entries [] (.inl h)

/-- In an ascending list, erasing a key removes it from the look-ups and
leaves the others alone. -/
theorem find?_erase [DecidableEq κ] [LT κ] [Std.Irrefl (α := κ) (· < ·)] {entries : List (κ × α)}
    (h : Ascending entries) (key k : κ) :
    find? k (erase key entries) = if k = key then none else find? k entries := by
  induction entries with
  | nil => simp [erase, find?]
  | cons head rest ih =>
    obtain ⟨k', v⟩ := head
    obtain ⟨hlow, hrest⟩ := List.pairwise_cons.1 h
    simp only [erase]
    split
    · rename_i heq
      subst heq
      simp only [find?]
      split
      · rename_i hk
        subst hk
        exact find?_eq_none fun e he heq =>
          Std.Irrefl.irrefl (r := (· < ·)) e.1 (heq ▸ hlow e he)
      · rfl
    · simp only [find?, ih hrest]
      split <;> split <;> simp_all

end Entries

/-- Entries in ascending order of their keys, each key once. -/
structure Dict (κ α : Type) [LT κ] where
  entries : List (κ × α)
  ascending : Entries.Ascending entries

namespace Dict

instance [LT κ] [DecidableEq κ] [DecidableEq α] : DecidableEq (Dict κ α) := fun a b =>
  decidable_of_iff (a.entries = b.entries)
    ⟨fun h => by cases a; cases b; simp_all, fun h => h ▸ rfl⟩

/-- The dictionary without entries. -/
def empty [LT κ] : Dict κ α := ⟨[], List.Pairwise.nil⟩

instance [LT κ] : Inhabited (Dict κ α) := ⟨empty⟩

section Basic

variable [LT κ] [DecidableEq κ]

/-- The value under a key. -/
def get? (d : Dict κ α) (key : κ) : Option α :=
  Entries.find? key d.entries

/-- The dictionary without a key. -/
def erase (d : Dict κ α) (key : κ) : Dict κ α :=
  ⟨Entries.erase key d.entries, d.ascending.erase key⟩

omit [DecidableEq κ]

/-- The keys in ascending order. -/
def keys (d : Dict κ α) : List κ := d.entries.map Prod.fst

/-- The values in the order of their keys. -/
def values (d : Dict κ α) : List α := d.entries.map Prod.snd

/-- How many entries there are. -/
def size (d : Dict κ α) : Nat := d.entries.length

/-- Whether there are none. -/
def isEmpty (d : Dict κ α) : Bool := d.entries.isEmpty

/-- The dictionary with every value replaced by its image; the keys stay. -/
def map (f : α → β) (d : Dict κ α) : Dict κ β :=
  ⟨d.entries.map fun e => (e.1, f e.2), List.pairwise_map.2 (by exact d.ascending)⟩

@[simp] theorem keys_map (f : α → β) (d : Dict κ α) : (d.map f).keys = d.keys := by
  simp [keys, map, Function.comp_def]

@[simp] theorem values_map (f : α → β) (d : Dict κ α) : (d.map f).values = d.values.map f := by
  simp [values, map, Function.comp_def]

end Basic

section Ordered

variable [DecidableEq κ] [LE κ] [LT κ] [DecidableLT κ] [Std.IsLinearOrder κ]
  [Std.LawfulOrderLT κ]

/-- The dictionary with `key` bound to `value`. -/
def insert (d : Dict κ α) (key : κ) (value : α) : Dict κ α :=
  ⟨Entries.insert key value d.entries, d.ascending.insert key value⟩

/-- The dictionary of a list in which later entries overrule earlier ones
under the same key. -/
def ofList (entries : List (κ × α)) : Dict κ α :=
  ⟨Entries.ofList entries, Entries.ascending_ofList entries⟩

omit [LE κ] [DecidableLT κ] [Std.IsLinearOrder κ] [Std.LawfulOrderLT κ] in
@[simp] theorem get?_empty (key : κ) : (empty : Dict κ α).get? key = none := rfl

@[simp] theorem get?_insert (d : Dict κ α) (key k : κ) (value : α) :
    (d.insert key value).get? k = if k = key then some value else d.get? k :=
  Entries.find?_insert key value k d.entries

omit [DecidableLT κ] [Std.IsLinearOrder κ] in
@[simp] theorem get?_erase (d : Dict κ α) (key k : κ) :
    (d.erase key).get? k = if k = key then none else d.get? k :=
  Entries.find?_erase d.ascending key k

omit [LE κ] [DecidableLT κ] [Std.IsLinearOrder κ] [Std.LawfulOrderLT κ] in
@[simp] theorem get?_map (d : Dict κ α) (f : α → β) (key : κ) :
    (d.map f).get? key = (d.get? key).map f :=
  Entries.find?_map f key d.entries

omit [DecidableLT κ] in
/-- A dictionary is determined by its look-ups. -/
theorem ext_get? {a b : Dict κ α} (h : ∀ key, a.get? key = b.get? key) : a = b := by
  obtain ⟨as, ha⟩ := a
  obtain ⟨bs, hb⟩ := b
  congr
  simp only [get?] at h
  induction as generalizing bs with
  | nil =>
    cases bs with
    | nil => rfl
    | cons e rest => simpa [Entries.find?] using h e.1
  | cons x xs ih =>
    cases bs with
    | nil => simpa [Entries.find?] using h x.1
    | cons y ys =>
      obtain ⟨k, v⟩ := x
      obtain ⟨k', v'⟩ := y
      obtain ⟨hlow, hxs⟩ := List.pairwise_cons.1 ha
      obtain ⟨hlow', hys⟩ := List.pairwise_cons.1 hb
      have below : ∀ {k₀ : κ} {es : List (κ × α)}, (∀ e ∈ es, k₀ < e.1) →
          Entries.find? k₀ es = none := fun hl =>
        Entries.find?_eq_none fun e he heq =>
          Std.lt_irrefl (heq ▸ hl e he)
      have hk : k = k' := by
        refine Std.le_antisymm (Std.not_lt.1 fun hlt => ?_) (Std.not_lt.1 fun hlt => ?_)
        · have := h k'
          simp only [Entries.find?, if_true] at this
          rw [if_neg (fun heq => Std.lt_irrefl (heq ▸ hlt)),
            below fun e he => Std.lt_trans hlt (hlow e he)] at this
          cases this
        · have := h k
          simp only [Entries.find?, if_true] at this
          rw [if_neg (fun heq => Std.lt_irrefl (heq ▸ hlt)),
            below fun e he => Std.lt_trans hlt (hlow' e he)] at this
          cases this
      subst hk
      have hv : v = v' := by simpa [Entries.find?] using h k
      subst hv
      congr 1
      refine ih hxs ys hys fun key => ?_
      by_cases hkey : key = k
      · subst hkey
        rw [below hlow, below hlow']
      · simpa [Entries.find?, hkey] using h key

end Ordered

end Dict

end ActionChain
