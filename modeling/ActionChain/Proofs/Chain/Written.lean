import ActionChain.Chain.Action
import ActionChain.Proofs.Variables.Matching
import ActionChain.Proofs.Variables.PartialMap

/-!
# Actions and Their Objects

An action and the JSON object that spells it carry the same information.

The object holds two things side by side: the name of a mod under `type`, and the
parameters under whatever other names they have. Reading splits them apart and writing
puts them together again. Nothing is lost on the way but a `type` that is null, which
says no more than one that is missing; and nothing leaks, because the name is split off
before the parameters are looked at, so that no handler finds it among them
(`Action.Plain`).

A text may list a key twice where a value in memory cannot. Of other keys the last member
counts, as in any object, but a second `type` is refused. What is said about reading is
therefore said about a source and the value that it has, with the number of times that the
key occurs; the source of a value in memory is the case where this is one at most.

## Main definitions

* `Source.occurrences`: how often a key occurs in an object.
* `Action.kind?`: the mod that a member `type` names, if it may stand there.
* `Action.bare`: an object without a `type` that is null.
* `Action.Plain`, `Chain.Plain`: no parameter is under that name.

## Theorems

* `Entries.ofList_filter_ne`: leaving out a key before or after bringing into order.
* `Source.single?_eq`: a member that may occur once.
* `Action.read?_eq_some_iff`: an action is what its object says.
* `Action.written_of_read?`, `Chain.written_of_read?`: it is written as its object.
* `Action.plain_of_read?`, `Chain.plain_of_read?`: no parameter of it is named `type`.
* `Action.read?_written`, `Chain.read?_written`: what is written is read again.
* `Action.read_and_written`: all of this about actions and chains.
-/

namespace ActionChain

namespace Entries

variable {α : Type}

/-! ## Look-ups -/

theorem find?_append (key : String) (xs ys : List (String × α)) :
    find? key (xs ++ ys) = (find? key xs).or (find? key ys) := by
  induction xs with
  | nil => rfl
  | cons head rest ih =>
      rcases head with ⟨k, v⟩
      rw [List.cons_append, find?, find?, ih]
      split <;> rfl

/-- In a dictionary order, what was listed last is found. -/
theorem find?_ofList (key : String) (entries : List (String × α)) :
    find? key (ofList entries) = find? key entries.reverse := by
  -- What was inserted before an entry shows only under other keys.
  have hfold : ∀ (entries acc : List (String × α)),
      find? key (entries.foldl (fun acc e => insert e.1 e.2 acc) acc) =
        (find? key entries.reverse).or (find? key acc) := by
    intro entries
    induction entries with
    | nil => exact fun acc => rfl
    | cons e rest ih =>
        intro acc
        rw [List.foldl_cons, ih, find?_insert, List.reverse_cons, find?_append, Option.or_assoc]
        refine congrArg _ ?_
        rw [find?, find?]
        split <;> rfl
  rw [ofList, hfold]
  exact Option.or_none

theorem find?_eq_none_of_countP {key : String} {entries : List (String × α)}
    (h : entries.countP (·.1 == key) = 0) : find? key entries = none :=
  find?_eq_none fun e he heq => List.countP_eq_zero.1 h e he (beq_iff_eq.2 heq.symm)

/-- A key that is listed once is found in any order. -/
theorem find?_ofList_of_countP {key : String} {entries : List (String × α)}
    (h : entries.countP (·.1 == key) ≤ 1) :
    find? key (ofList entries) = find? key entries := by
  rw [find?_ofList]
  induction entries with
  | nil => rfl
  | cons e rest ih =>
      rcases e with ⟨k, v⟩
      rw [List.countP_cons] at h
      rw [List.reverse_cons, find?_append, find?]
      by_cases hk : key = k
      · subst hk
        have hrest : rest.countP (·.1 == key) = 0 := by simpa using h
        rw [find?_eq_none_of_countP (by rwa [List.countP_reverse])]
        simp [find?]
      · have hrest : rest.countP (·.1 == key) ≤ 1 := Nat.le_trans (Nat.le_add_right _ _) h
        rw [ih hrest, if_neg hk]
        simp [find?, hk]

theorem find?_filter_ne (key k : String) (entries : List (String × α)) :
    find? k (entries.filter (·.1 != key)) = if k = key then none else find? k entries := by
  induction entries with
  | nil => simp [find?]
  | cons e rest ih =>
      rcases e with ⟨k', v⟩
      by_cases hk' : k' = key
      · rw [List.filter_cons_of_neg (by simpa using hk'), ih]
        by_cases hk : k = key
        · rw [if_pos hk, if_pos hk]
        · rw [if_neg hk, if_neg hk, find?, if_neg (hk' ▸ hk)]
      · rw [List.filter_cons_of_pos (by simpa using hk'), find?, find?, ih]
        by_cases hkk' : k = k'
        · rw [if_pos hkk', if_pos hkk', if_neg (hkk' ▸ hk')]
        · rw [if_neg hkk', if_neg hkk']

/-- Entries in order are determined by what is found in them. -/
theorem eq_of_find? {xs ys : List (String × α)} (hxs : Ascending xs) (hys : Ascending ys)
    (h : ∀ key, find? key xs = find? key ys) : xs = ys :=
  congrArg Dict.entries (Dict.ext_get? (a := ⟨xs, hxs⟩) (b := ⟨ys, hys⟩) h)

/-- A key may be left out before or after entries are brought into order. -/
theorem ofList_filter_ne (key : String) (entries : List (String × α)) :
    ofList (entries.filter (·.1 != key)) = erase key (ofList entries) := by
  refine eq_of_find? (ascending_ofList _) ((ascending_ofList entries).erase key) fun k => ?_
  rw [find?_ofList, ← List.filter_reverse, find?_filter_ne,
    find?_erase (ascending_ofList entries), find?_ofList]

theorem erase_of_find?_eq_none {key : String} {entries : List (String × α)}
    (h : Ascending entries) (hkey : find? key entries = none) : erase key entries = entries := by
  refine eq_of_find? (h.erase key) h fun k => ?_
  rw [find?_erase h]
  split
  · rename_i hk
    rw [hk, hkey]
  · rfl

theorem insert_erase_of_find? {key : String} {v : α} {entries : List (String × α)}
    (h : Ascending entries) (hkey : find? key entries = some v) :
    insert key v (erase key entries) = entries := by
  refine eq_of_find? ((h.erase key).insert key v) h fun k => ?_
  rw [find?_insert, find?_erase h]
  split
  · rename_i hk
    rw [hk, hkey]
  · rfl

theorem erase_insert_of_find?_eq_none {key : String} {v : α} {entries : List (String × α)}
    (h : Ascending entries) (hkey : find? key entries = none) :
    erase key (insert key v entries) = entries := by
  refine eq_of_find? ((h.insert key v).erase key) h fun k => ?_
  rw [find?_erase (h.insert key v), find?_insert]
  split
  · rename_i hk
    rw [hk, hkey]
  · rfl

/-- In ascending order a key occurs once at most. -/
theorem countP_le_one {entries : List (String × α)} (h : Ascending entries) (key : String) :
    entries.countP (·.1 == key) ≤ 1 := by
  have hnodup : (entries.map Prod.fst).Nodup := by
    refine List.Pairwise.imp ?_ (Json.ascending_iff_keys.1 h)
    intro k k' hlt heq
    exact Std.lt_irrefl (heq ▸ hlt)
  have hcount := List.nodup_iff_count_le_one.1 hnodup key
  rwa [List.count, List.countP_map] at hcount

end Entries

/-! ## Members of a source -/

namespace Source

/-- How often a key occurs in an object. -/
def occurrences (key : String) : Source → Nat
  | .object members => members.countP fun m => m.1.text == some key
  | _ => 0

/-- A source has a value. -/
def Reads (s : Source) (j : Json) : Prop := s.value? = some j

theorem memberJsons?_eq_some_iff {pairs : List (String × Source)}
    {values : List (String × Json)} :
    memberJsons? pairs = some values ↔ Entries.Matches Reads pairs values := by
  have hentry : ∀ (p : String × Source) (e : String × Json),
      p.2.value?.map (p.1, ·) = some e ↔ p.1 = e.1 ∧ Reads p.2 e.2 := by
    rintro ⟨key, source⟩ ⟨key', value⟩
    simp [Reads, Option.map_eq_some_iff, and_comm]
  rw [memberJsons?, mapM_eq_some_iff]
  simp only [hentry]
  rfl

theorem exists_memberJsons? {pairs : List (String × Source)}
    (h : ∀ p ∈ pairs, ∃ j, Reads p.2 j) : ∃ values, memberJsons? pairs = some values := by
  induction pairs with
  | nil => exact ⟨[], rfl⟩
  | cons p rest ih =>
      rcases List.forall_mem_cons.1 h with ⟨⟨j, hj⟩, hrest⟩
      rcases ih hrest with ⟨values, hvalues⟩
      rw [memberJsons?] at hvalues
      exact ⟨(p.1, j) :: values, by simp [memberJsons?, hvalues, show p.2.value? = some j from hj]⟩

/-- The values of members are those of their sources, if all keys are readable. -/
theorem memberValues?_eq (members : List (Key × Source)) :
    memberValues? members = (readableKeys? members).bind memberJsons? := by
  induction members with
  | nil => rfl
  | cons head rest ih =>
      rcases head with ⟨key, source⟩
      rw [memberValues?, readableKeys?, ih]
      -- What is missing is missed at one place or another.
      cases key.text <;> cases hrest : readableKeys? rest <;> cases hvalue : source.value? <;>
        simp [memberJsons?, hvalue]

theorem countP_readableKeys? {members : List (Key × Source)} {pairs : List (String × Source)}
    (h : readableKeys? members = some pairs) (key : String) :
    pairs.countP (·.1 == key) = members.countP fun m => m.1.text == some key := by
  induction members generalizing pairs with
  | nil =>
      cases h
      rfl
  | cons head rest ih =>
      simp only [readableKeys?, Option.bind_eq_bind, Option.bind_eq_some_iff] at h
      rcases h with ⟨text, htext, others, hothers, h⟩
      cases h
      rw [List.countP_cons, List.countP_cons, ih hothers, htext]
      simp

/-- The value of an object in terms of its members with readable keys. -/
theorem exists_pairs {members : List (Key × Source)} {ms : List (String × Json)}
    (h : (Source.object members).value? = some (.object ms)) :
    ∃ pairs values, readableKeys? members = some pairs ∧ Entries.Matches Reads pairs values ∧
      ms = Entries.ofList values := by
  rw [value?, memberValues?_eq, Option.map_eq_some_iff] at h
  rcases h with ⟨values, hvalues, hms⟩
  rcases Option.bind_eq_some_iff.1 hvalues with ⟨pairs, hpairs, hreads⟩
  exact ⟨pairs, values, hpairs, memberJsons?_eq_some_iff.1 hreads, (Json.object.inj hms).symm⟩

/-- What stands under a key that may occur once. -/
theorem single?_eq (key : String) (pairs : List (String × Source)) :
    single? key pairs =
      if pairs.countP (·.1 == key) ≤ 1 then some (Entries.find? key pairs) else none := by
  have hfind : Entries.find? key pairs = ((pairs.filter (·.1 == key)).head?).map Prod.snd := by
    induction pairs with
    | nil => rfl
    | cons head rest ih =>
        rcases head with ⟨k, s⟩
        by_cases hk : key = k
        · simp [Entries.find?, hk]
        · rw [Entries.find?, if_neg hk, ih, List.filter_cons_of_neg]
          simpa using fun h => hk h.symm
  rw [single?, splitMembers, List.partition_eq_filter_filter, hfind, List.countP_eq_length_filter]
  dsimp only
  generalize pairs.filter (·.1 == key) = found
  rcases found with _ | ⟨p, _ | ⟨q, rest⟩⟩
  · rfl
  · rfl
  · simp

theorem eq_of_single? {key : String} {pairs : List (String × Source)} {o : Option Source}
    (h : single? key pairs = some o) {p : String × Source} (hp : p ∈ pairs) (hkey : p.1 = key) :
    o = some p.2 := by
  have hfound : p ∈ pairs.filter (·.1 == key) := List.mem_filter.2 ⟨hp, beq_iff_eq.2 hkey⟩
  rw [single?, splitMembers, List.partition_eq_filter_filter] at h
  revert h hfound
  dsimp only
  generalize pairs.filter (·.1 == key) = found
  rcases found with _ | ⟨q, _ | ⟨r, rest⟩⟩
  · exact fun _ => nofun
  · intro h hfound
    cases List.mem_singleton.1 hfound
    exact (Option.some.inj h).symm
  · exact nofun

theorem matches_filter_ne {pairs : List (String × Source)} {values : List (String × Json)}
    (h : Entries.Matches Reads pairs values) (key : String) :
    Entries.Matches Reads (pairs.filter (·.1 != key)) (values.filter (·.1 != key)) := by
  induction h with
  | nil => exact .nil
  | @cons p e _ _ hhead _ ih =>
      rw [List.filter_cons, List.filter_cons, hhead.1]
      split
      · exact .cons hhead ih
      · exact ih

theorem countP_eq_of_matches {pairs : List (String × Source)} {values : List (String × Json)}
    (h : Entries.Matches Reads pairs values) (key : String) :
    pairs.countP (·.1 == key) = values.countP (·.1 == key) := by
  induction h with
  | nil => rfl
  | @cons p e _ _ hhead _ ih => rw [List.countP_cons, List.countP_cons, ih, hhead.1]

theorem ofItems_eq_map (items : List Json) : ofItems items = items.map ofJson := by
  induction items with
  | nil => rfl
  | cons item rest ih => rw [ofItems, ih, List.map_cons]

theorem ofMembers_eq_map (ms : List (String × Json)) :
    ofMembers ms = ms.map fun e => (⟨some e.1, false⟩, ofJson e.2) := by
  induction ms with
  | nil => rfl
  | cons head rest ih => rw [ofMembers, ih, List.map_cons]

/-- A value in memory has no key twice. -/
theorem occurrences_ofJson {ms : List (String × Json)} (h : Entries.Ascending ms)
    (key : String) : occurrences key (ofJson (.object ms)) ≤ 1 := by
  rw [ofJson, occurrences, ofMembers_eq_map, List.countP_map]
  simpa [Function.comp_def] using Entries.countP_le_one h key

/-- The fields of an object in memory. -/
theorem record?_ofJson {ms : List (String × Json)} (names : List String) :
    (ofJson (.object ms)).record? names =
      if names.all fun name => ms.countP (·.1 == name) ≤ 1 then
        some fun name => (Entries.find? name ms).map ofJson
      else none := by
  have hpairs : readableKeys? (ofMembers ms) = some (ms.map fun e => (e.1, ofJson e.2)) := by
    induction ms with
    | nil => rfl
    | cons head rest ih =>
        rw [ofMembers, readableKeys?, ih]
        rfl
  rw [ofJson, record?, hpairs]
  simp only [Option.bind_eq_bind, Option.bind_some, List.countP_map, Entries.find?_map,
    Function.comp_def]

end Source

/-! ## Actions -/

namespace Action

/-- The mod that is named by what stands under `type`: none where nothing stands or a
null. Nothing else than a text names one. -/
def kind? : Option Json → Option (Option String)
  | none => some none
  | some .null => some none
  | some (.string name) => some (some name)
  | some _ => none

/-- An object without a `type` that is null. -/
def bare : Json → Json
  | .object ms =>
    match Entries.find? "type" ms with
    | some .null => .object (Entries.erase "type" ms)
    | _ => .object ms
  | j => j

/-- Parameters in order, none of them under the key that names the mod. -/
structure Plain (a : Action) : Prop where
  ordered : (Json.object a.params).Ordered
  find?_type : Entries.find? "type" a.params = none

theorem kind?_isSome_iff (o : Option Json) :
    (kind? o).isSome ↔ o = none ∨ o = some .null ∨ ∃ name, o = some (.string name) := by
  rcases o with _ | j
  · simp [kind?]
  · cases j <;> simp [kind?]

/-- What stands under `type` is read by what it says. -/
theorem kind?_eq {o : Option Source} {o' : Option Json} (h : Option.Rel Source.Reads o o') :
    Source.withDefault none (Source.nullable? Source.text?) o = kind? o' := by
  cases h with
  | none => rfl
  | @some s j hj =>
      cases s with
      | array items =>
          rcases Option.map_eq_some_iff.1 hj with ⟨_, -, rfl⟩
          rfl
      | object members =>
          rcases Option.map_eq_some_iff.1 hj with ⟨_, -, rfl⟩
          rfl
      | unreadable => cases hj
      | _ =>
          cases hj
          rfl

/-- An action is what its object says: the mod that `type` names, and the other
members. -/
theorem read?_eq {s : Source} {ms : List (String × Json)} (h : s.value? = some (.object ms)) :
    read? s =
      if s.occurrences "type" ≤ 1 then
        (kind? (Entries.find? "type" ms)).map (⟨·, Entries.erase "type" ms⟩)
      else none := by
  cases s with
  | object members =>
      rcases Source.exists_pairs h with ⟨pairs, values, hpairs, hreads, rfl⟩
      have hcount : pairs.countP (·.1 == "type") = Source.occurrences "type" (.object members) :=
        Source.countP_readableKeys? hpairs "type"
      have hothers : Source.memberJsons? (Source.splitMembers "type" pairs).2 =
          some (values.filter (·.1 != "type")) := by
        rw [Source.splitMembers, List.partition_eq_filter_filter, Source.memberJsons?_eq_some_iff]
        exact Source.matches_filter_ne hreads "type"
      rw [read?, hpairs]
      simp only [Option.bind_eq_bind, Option.bind_some, Source.single?_eq, hcount, hothers]
      split
      · rename_i honce
        rw [← hcount, Source.countP_eq_of_matches hreads] at honce
        rw [Entries.find?_ofList_of_countP honce, ← kind?_eq (hreads.find? "type"),
          ← Entries.ofList_filter_ne, Option.bind_some]
        cases Source.withDefault none (Source.nullable? Source.text?)
          (Entries.find? "type" pairs) <;> rfl
      · rfl
  | array items =>
      rcases Option.map_eq_some_iff.1 h with ⟨_, -, h⟩
      cases h
  | _ => cases h

/-- Every part of an action that was read has a value. -/
theorem exists_value_of_read? {s : Source} {a : Action} (h : read? s = some a) :
    ∃ ms, s.value? = some (.object ms) := by
  cases s with
  | object members =>
      simp only [read?, Option.bind_eq_bind, Option.bind_eq_some_iff] at h
      rcases h with ⟨pairs, hpairs, o, ho, kind, hkind, values, hvalues, -⟩
      have hreads : ∀ p ∈ pairs, ∃ j, Source.Reads p.2 j := by
        intro p hp
        by_cases hkey : p.1 = "type"
        · rw [Source.eq_of_single? ho hp hkey, Source.withDefault] at hkind
          -- Only a null or a text is read as what names the mod.
          generalize p.2 = source at hkind
          cases source <;> first | exact ⟨_, rfl⟩ | cases hkind
        · refine Option.ne_none_iff_exists'.1 fun hnone => ?_
          have hother : p ∈ (Source.splitMembers "type" pairs).2 := by
            rw [Source.splitMembers, List.partition_eq_filter_filter]
            exact List.mem_filter.2 ⟨hp, by simpa using hkey⟩
          exact Option.some_ne_none _ (hvalues.symm.trans
            (mapM_eq_none hother (congrArg (Option.map (p.1, ·)) hnone)))
      rcases Source.exists_memberJsons? hreads with ⟨all, hall⟩
      exact ⟨Entries.ofList all, by
        rw [Source.value?, Source.memberValues?_eq, hpairs, Option.bind_some, hall, Option.map_some]⟩
  | _ => cases h

/-- A source is read as an action exactly if it is an object whose `type` may stand there, and
then the other members are the parameters. -/
theorem read?_eq_some_iff {s : Source} {a : Action} :
    read? s = some a ↔ ∃ ms, s.value? = some (.object ms) ∧ s.occurrences "type" ≤ 1 ∧
      kind? (Entries.find? "type" ms) = some a.kind ∧ a.params = Entries.erase "type" ms := by
  constructor
  · intro h
    rcases exists_value_of_read? h with ⟨ms, hvalue⟩
    rw [read?_eq hvalue] at h
    split at h
    · rcases Option.map_eq_some_iff.1 h with ⟨kind, hkind, rfl⟩
      exact ⟨ms, hvalue, ‹_›, hkind, rfl⟩
    · cases h
  · rintro ⟨ms, hvalue, honce, hkind, hparams⟩
    rw [read?_eq hvalue, if_pos honce, hkind, ← hparams, Option.map_some]

/-- An object is an action exactly if its `type` is missing, null or a text. -/
theorem read?_isSome_iff {s : Source} {ms : List (String × Json)}
    (h : s.value? = some (.object ms)) :
    (read? s).isSome ↔ s.occurrences "type" ≤ 1 ∧
      (Entries.find? "type" ms = none ∨ Entries.find? "type" ms = some .null ∨
        ∃ name, Entries.find? "type" ms = some (.string name)) := by
  rw [read?_eq h, ← kind?_isSome_iff]
  split
  · rw [Option.isSome_map, and_iff_right ‹_›]
  · simp [*]

/-- An action is written as its object. -/
theorem written_of_read? {s : Source} {j : Json} {a : Action} (hvalue : s.value? = some j)
    (h : read? s = some a) : a.written = bare j := by
  rcases read?_eq_some_iff.1 h with ⟨ms, hms, -, hkind, hparams⟩
  cases hvalue.symm.trans hms
  have hordered : Entries.Ascending ms := (Source.ordered_of_value? hms).1
  rcases a with ⟨kind, params⟩
  cases hparams
  cases htype : Entries.find? "type" ms with
  | none =>
      rw [htype] at hkind
      cases hkind
      simp only [bare, htype]
      exact congrArg Json.object (Entries.erase_of_find?_eq_none hordered htype)
  | some j =>
      rw [htype] at hkind
      cases j with
      | null =>
          cases hkind
          simp only [bare, htype]
          rfl
      | string name =>
          cases hkind
          simp only [bare, htype]
          exact congrArg Json.object (Entries.insert_erase_of_find? hordered htype)
      | _ => cases hkind

/-- No parameter of an action that was read is under the key that names the mod. -/
theorem plain_of_read? {s : Source} {a : Action} (h : read? s = some a) : a.Plain := by
  rcases read?_eq_some_iff.1 h with ⟨ms, hvalue, -, -, hparams⟩
  have hordered : (Json.object ms).Ordered := Source.ordered_of_value? hvalue
  rcases a with ⟨kind, params⟩
  cases hparams
  refine ⟨⟨hordered.1.erase "type", Json.orderedMembers_iff.2 fun e he => ?_⟩, ?_⟩
  · exact Json.orderedMembers_iff.1 hordered.2 e (Entries.mem_of_mem_erase he)
  · exact (Entries.find?_erase hordered.1 _ _).trans (if_pos rfl)

/-- What a handler is given are the parameters, and it finds none under the key that
names the mod. -/
theorem Plain.seen {a : Action} (ha : a.Plain) :
    a.paramSource.value? = some (.object a.params) ∧
      ∀ names field, a.paramSource.record? names = some field → field "type" = none := by
  refine ⟨Source.value?_ofJson _ ha.ordered, fun names field h => ?_⟩
  rw [paramSource, Source.record?_ofJson] at h
  split at h
  · cases h
    exact congrArg (Option.map Source.ofJson) ha.find?_type
  · cases h

theorem Plain.ordered_written {a : Action} (ha : a.Plain) : a.written.Ordered := by
  unfold written
  cases a.kind with
  | none => exact ha.ordered
  | some name =>
      refine ⟨ha.ordered.1.insert "type" (.string name), Json.orderedMembers_iff.2 fun e he => ?_⟩
      rcases Entries.mem_insert he with rfl | he
      · trivial
      · exact Json.orderedMembers_iff.1 ha.ordered.2 e he

/-- An action that was written is read again. -/
theorem read?_written {a : Action} (ha : a.Plain) : read? (Source.ofJson a.written) = some a := by
  have hvalue := Source.value?_ofJson _ ha.ordered_written
  rcases a with ⟨_ | name, params⟩
  · exact read?_eq_some_iff.2 ⟨params, hvalue, Source.occurrences_ofJson ha.ordered.1 _,
      congrArg kind? ha.find?_type,
      (Entries.erase_of_find?_eq_none ha.ordered.1 ha.find?_type).symm⟩
  · refine read?_eq_some_iff.2 ⟨_, hvalue, Source.occurrences_ofJson (ha.ordered.1.insert _ _) _,
      ?_, (Entries.erase_insert_of_find?_eq_none ha.ordered.1 ha.find?_type).symm⟩
    rw [Entries.find?_insert, if_pos rfl]
    rfl

end Action

/-! ## Chains -/

namespace Chain

/-- All actions are plain. -/
def Plain (c : Chain) : Prop := ∀ a ∈ c.actions, a.Plain

/-- A list of actions that was read holds plain ones. -/
theorem plain_of_list? {s : Source} {actions : List Action}
    (h : s.list? Action.read? = some actions) : ∀ a ∈ actions, a.Plain := by
  cases s with
  | array items =>
      intro a ha
      rcases exists_of_mem_mapM h ha with ⟨item, -, hitem⟩
      exact Action.plain_of_read? hitem
  | _ => cases h

theorem plain_of_withDefault {o : Option Source} {actions : List Action}
    (h : Source.withDefault [] (Source.list? Action.read?) o = some actions) :
    ∀ a ∈ actions, a.Plain := by
  cases o with
  | none =>
      cases h
      exact nofun
  | some s => exact plain_of_list? h

theorem plain_of_read? {s : Source} {c : Chain} (h : read? s = some c) : c.Plain := by
  simp only [read?, Option.bind_eq_bind, Option.bind_eq_some_iff] at h
  rcases h with ⟨field, -, name, -, actions, hactions, hc⟩
  cases hc
  exact plain_of_withDefault hactions

end Chain

theorem Command.plain_of_read? {s : Source} {c : Command} (h : read? s = some c) :
    c.chain.Plain := by
  cases s with
  | object members =>
      simp only [read?, Option.bind_eq_bind, Option.bind_eq_some_iff] at h
      rcases h with ⟨pairs, -, o, -, name, -, o', -, actions, hactions, o'', -, perms, -, ms, -, hc⟩
      cases hc
      exact Chain.plain_of_withDefault hactions
  | _ => cases h

/-! ## Chains and their objects -/

theorem Source.values?_eq_mapM (sources : List Source) :
    Source.values? sources = sources.mapM Source.value? := by
  induction sources with
  | nil => rfl
  | cons s rest ih => rw [Source.values?, ih, List.mapM_cons]

/-- What the fields of an object hold has the value that stands under the key. -/
theorem Source.reads_of_record? {s : Source} {ms : List (String × Json)} {names : List String}
    {field : Source.Fields} (hvalue : s.value? = some (.object ms))
    (h : s.record? names = some field) {name : String} (hname : name ∈ names) :
    Option.Rel Source.Reads (field name) (Entries.find? name ms) := by
  cases s with
  | object members =>
      rcases Source.exists_pairs hvalue with ⟨pairs, values, hpairs, hreads, rfl⟩
      rw [Source.record?, hpairs, Option.bind_eq_bind, Option.bind_some] at h
      split at h
      · rename_i honce
        cases h
        have hcount : pairs.countP (·.1 == name) ≤ 1 := by
          simpa using List.all_eq_true.1 honce name hname
        rw [Source.countP_eq_of_matches hreads] at hcount
        rw [Entries.find?_ofList_of_countP hcount]
        exact hreads.find? name
      · cases h
  | array items =>
      rcases Option.map_eq_some_iff.1 hvalue with ⟨_, -, h⟩
      cases h
  | _ => cases hvalue

namespace Chain

/-- Actions are written as their objects. -/
theorem map_written_of_mapM {sources : List Source} {items : List Json} {actions : List Action}
    (hitems : sources.mapM Source.value? = some items)
    (h : sources.mapM Action.read? = some actions) :
    actions.map Action.written = items.map Action.bare := by
  rw [mapM_eq_some_iff] at hitems h
  induction hitems generalizing actions with
  | nil =>
      cases h
      rfl
  | cons hvalue _ ih =>
      cases h with
      | cons hread hrest =>
          rw [List.map_cons, List.map_cons, Action.written_of_read? hvalue hread, ih hrest]

/-- What a list of actions was read from is an array of their objects. -/
theorem items_of_list? {o : Option Source} {o' : Option Json} {actions : List Action}
    (hrel : Option.Rel Source.Reads o o')
    (h : Source.withDefault [] (Source.list? Action.read?) o = some actions) :
    ∃ items, o'.getD (.array []) = .array items ∧
      actions.map Action.written = items.map Action.bare := by
  cases hrel with
  | none =>
      cases h
      exact ⟨[], rfl, rfl⟩
  | @some s j hj =>
      cases s with
      | array sources =>
          rcases Option.map_eq_some_iff.1 hj with ⟨items, hitems, rfl⟩
          rw [Source.values?_eq_mapM] at hitems
          exact ⟨items, rfl, map_written_of_mapM hitems h⟩
      | _ => cases h

/-- A chain is written as its object, each action as its own. -/
theorem written_of_read? {s : Source} {ms : List (String × Json)} {c : Chain}
    (hvalue : s.value? = some (.object ms)) (h : read? s = some c) :
    Entries.find? "name" ms = some (.string c.name) ∧
      ∃ items, (Entries.find? "actions" ms).getD (.array []) = .array items ∧
        c.written =
          .object [("name", .string c.name), ("actions", .array (items.map Action.bare))] := by
  simp only [read?, Option.bind_eq_bind, Option.bind_eq_some_iff] at h
  rcases h with ⟨field, hfield, name, hname, actions, hactions, hc⟩
  cases hc
  have hreads := fun key (hkey : key ∈ ["name", "actions"]) =>
    Source.reads_of_record? hvalue hfield hkey
  rcases items_of_list? (hreads "actions" (by simp)) hactions with ⟨items, hitems, hwritten⟩
  refine ⟨?_, items, hitems, by rw [written, hwritten]⟩
  rcases Option.bind_eq_some_iff.1 hname with ⟨source, hsource, htext⟩
  cases source with
  | string n =>
      cases htext
      have hrel := hreads "name" (by simp)
      rw [hsource] at hrel
      rcases exists_of_rel_some hrel with ⟨j, hfound, hj⟩
      cases hj
      exact hfound
  | _ => cases htext

theorem required_text?_ofJson {o : Option Json} {name : String} :
    Source.required Source.text? (o.map Source.ofJson) = some name ↔ o = some (.string name) := by
  rcases o with _ | j
  · exact ⟨nofun, nofun⟩
  · cases j <;> simp [Source.required, Source.ofJson, Source.text?]

theorem withDefault_list?_ofJson {o : Option Json} {actions : List Action} :
    Source.withDefault [] (Source.list? Action.read?) (o.map Source.ofJson) = some actions ↔
      ∃ items, o.getD (.array []) = .array items ∧
        (items.mapM fun j => Action.read? (Source.ofJson j)) = some actions := by
  rcases o with _ | j
  · simp [Source.withDefault]
  · cases j <;>
      simp [Source.withDefault, Source.ofJson, Source.list?, Source.ofItems_eq_map, List.mapM_map,
        Function.comp_def]

/-- A chain in memory is read action by action. -/
theorem read?_eq_some_iff {ms : List (String × Json)}
    (honce : ∀ key ∈ ["name", "actions"], ms.countP (·.1 == key) ≤ 1) {c : Chain} :
    read? (Source.ofJson (.object ms)) = some c ↔
      Entries.find? "name" ms = some (.string c.name) ∧
        ∃ items, (Entries.find? "actions" ms).getD (.array []) = .array items ∧
          (items.mapM fun j => Action.read? (Source.ofJson j)) = some c.actions := by
  have hcount : (["name", "actions"].all fun key => ms.countP (·.1 == key) ≤ 1) = true :=
    List.all_eq_true.2 fun key hkey => decide_eq_true (honce key hkey)
  rcases c with ⟨name, actions⟩
  rw [read?, Source.record?_ofJson, if_pos hcount, ← required_text?_ofJson,
    ← withDefault_list?_ofJson]
  simp only [Option.bind_eq_bind, Option.bind_some, Option.bind_eq_some_iff, Option.pure_def,
    Option.some.injEq, Chain.mk.injEq]
  constructor
  · rintro ⟨_, hname, _, hactions, rfl, rfl⟩
    exact ⟨hname, hactions⟩
  · rintro ⟨hname, hactions⟩
    exact ⟨name, hname, actions, hactions, rfl, rfl⟩

/-- A chain that was written is read again. -/
theorem read?_written {c : Chain} (hc : c.Plain) : read? (Source.ofJson c.written) = some c := by
  refine (read?_eq_some_iff (by simp)).2 ⟨rfl, _, rfl, ?_⟩
  rw [List.mapM_map]
  exact (mapM_eq_some_map fun a ha => Action.read?_written (hc a ha)).trans
    (congrArg some (List.map_id _))

end Chain

namespace Action

/-- Reading splits an object into the name of a mod and parameters, and writing puts both
together again. Here a source is anything that may stand in a file or in memory, and two of the
same key are possible only in a file. -/
theorem read_and_written :
    (∀ s ms, Source.value? s = some (.object ms) →
      ((read? s).isSome ↔ s.occurrences "type" ≤ 1 ∧
        (Entries.find? "type" ms = none ∨ Entries.find? "type" ms = some .null ∨
          ∃ name, Entries.find? "type" ms = some (.string name))) ∧
      ∀ a, read? s = some a →
        kind? (Entries.find? "type" ms) = some a.kind ∧
        a.params = Entries.erase "type" ms ∧
        (∀ key, Entries.find? key a.params =
          if key = "type" then none else Entries.find? key ms) ∧
        a.written = bare (.object ms)) ∧
    (∀ ms, (Json.object ms).Ordered → (Source.ofJson (.object ms)).value? = some (.object ms) ∧
      (Source.ofJson (.object ms)).occurrences "type" ≤ 1) ∧
    (∀ s a, read? s = some a → a.Plain) ∧
    (∀ a, Plain a →
      a.paramSource.value? = some (.object a.params) ∧
      (∀ names field, a.paramSource.record? names = some field → field "type" = none) ∧
      read? (Source.ofJson a.written) = some a) ∧
    (∀ s c, Chain.read? s = some c → c.Plain) ∧
    (∀ s c, Command.read? s = some c → c.chain.Plain) ∧
    (∀ s ms c, Source.value? s = some (.object ms) → Chain.read? s = some c →
      Entries.find? "name" ms = some (.string c.name) ∧
        ∃ items, (Entries.find? "actions" ms).getD (.array []) = .array items ∧
          c.written =
            .object [("name", .string c.name), ("actions", .array (items.map bare))]) ∧
    (∀ ms c, (Json.object ms).Ordered → (Chain.read? (Source.ofJson (.object ms)) = some c ↔
      Entries.find? "name" ms = some (.string c.name) ∧
        ∃ items, (Entries.find? "actions" ms).getD (.array []) = .array items ∧
          (items.mapM fun j => read? (Source.ofJson j)) = some c.actions)) ∧
    ∀ c, Chain.Plain c → Chain.read? (Source.ofJson c.written) = some c := by
  refine ⟨fun s ms hvalue => ⟨read?_isSome_iff hvalue, fun a h => ?_⟩, fun ms hms => ?_,
    fun s a => plain_of_read?, fun a ha => ⟨ha.seen.1, ha.seen.2, read?_written ha⟩,
    fun s c => Chain.plain_of_read?, fun s c => Command.plain_of_read?,
    fun s ms c => Chain.written_of_read?, fun ms c hms => ?_, fun c => Chain.read?_written⟩
  · rcases read?_eq_some_iff.1 h with ⟨ms', hvalue', -, hkind, hparams⟩
    cases hvalue.symm.trans hvalue'
    refine ⟨hkind, hparams, fun key => ?_, written_of_read? hvalue h⟩
    rw [hparams, Entries.find?_erase (Source.ordered_of_value? hvalue).1]
  · exact ⟨Source.value?_ofJson _ hms, Source.occurrences_ofJson hms.1 _⟩
  · exact Chain.read?_eq_some_iff fun key _ => Entries.countP_le_one hms.1 key

/-- Parameters may be named like the parts of an action, and may hold a `type` further inside;
a null where the mod is named is not written again. -/
theorem read_and_written_namesakes :
    let ms : List (String × Json) :=
      [("kind", .string "note"), ("params", .object [("type", .bool true)]), ("type", .null)]
    ∃ a, read? (Source.ofJson (.object ms)) = some a ∧ a.kind = none ∧
      a.params = [("kind", .string "note"), ("params", .object [("type", .bool true)])] ∧
      a.written = .object a.params ∧ read? (Source.ofJson a.written) = some a ∧
      Chain.read? (Source.ofJson (Chain.written ⟨"greet", [a, a]⟩)) = some ⟨"greet", [a, a]⟩ := by
  intro ms
  rcases read_and_written with ⟨hread, hmemory, hplain, hback, -, -, -, -, hchain⟩
  have hordered : (Json.object ms).Ordered := by
    have hkeys : ["kind", "params", "type"].Pairwise (· < ·) := by decide
    refine ⟨Json.ascending_iff_keys.2 hkeys, ?_⟩
    simp [ms, Json.OrderedMembers, Json.Ordered, Entries.Ascending]
  rcases hmemory ms hordered with ⟨hvalue, honce⟩
  rcases hread _ ms hvalue with ⟨hsome, hparts⟩
  rcases Option.isSome_iff_exists.1 (hsome.2 ⟨honce, .inr (.inl rfl)⟩) with ⟨a, ha⟩
  rcases hparts a ha with ⟨hkind, hparams, -, hwritten⟩
  have hplain := hplain _ a ha
  refine ⟨a, ha, (Option.some.inj hkind).symm, hparams, ?_, (hback a hplain).2.2,
    hchain _ (by simp [Chain.Plain, hplain])⟩
  rw [hwritten, hparams]
  rfl

end Action

end ActionChain
