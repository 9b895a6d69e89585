import ActionChain.Proofs.Json.Reread
import ActionChain.Proofs.Variables.PartialMap
import ActionChain.Variables.File

/-!
# Reading Back a Scope

What a scope's file is read back as, value by value.

A file spells every value on its own, so reading the file back is reading
every value back, all or nothing (`Persisted.read?_fileText`). Null, truth
values and texts are read back as themselves, and so are references that fit
a word. A number is read back as whatever its characters stand for, and one
that is not finite has no characters and is not read back at all. One such
value anywhere, and nothing of the file is read.

Whether the graph that is read back is written like the one that was written
therefore comes down to the values. A number that is read back as another one
does not change the walk, because the walk looks at references only
(`Graph.encode_map`); the difference stays where it is and shows.

## Main definitions

* `Value.reread?`: what a value is read back as.
* `Value.Durable`: a value that is read back as itself.
* `Value.KeepsRefs`: maps that keep references.
* `Graph.reloaded`: the graph that is loaded after a graph was written.

## Theorems

* `Value.read?_written`, `Persisted.read?_fileText`: reading back.
* `Graph.encode_map`: the walk looks at references only.
* `Graph.encode_reloaded_iff`: written the same exactly if all values last.
* `Graph.encode_reloaded_iff_finite`: what is left if finite numbers last.
* `Graph.reloaded_eq_empty`: one value that is not read back loses the scope.
* `Value.durable_iff`: which values last.
-/

namespace ActionChain

/-- What the characters of a finite number are read as. -/
def Binary64.Finite.reread? (x : Binary64.Finite) : Option Binary64 :=
  (Number.float x).source.float?

namespace Value

/-- What a value is read back as, if it is. -/
def reread? : Value → Option Value
  | .number (.finite x) => x.reread?.map .number
  | .number _ => none
  | .ref id => if id < UInt64.size then some (.ref id) else none
  | v => some v

/-- A value that is read back as itself. -/
def Durable (v : Value) : Prop := v.reread? = some v

theorem inRange_iff (id : Nat) : Number.InRange id ↔ id < UInt64.size := by
  unfold Number.InRange UInt64.size
  omega

/-- A value is read back from its written form. One level of nesting is enough. -/
theorem read?_written (v : Value) (depth : Nat) :
    read? (v.written.reread (depth + 1)) = v.reread? := by
  cases v with
  | null => rfl
  | bool b => rfl
  | number x =>
      cases x with
      | finite x => rfl
      | infinite negative => rfl
      | nan => rfl
  | text s => rfl
  | ref id =>
      simp only [written, reread?]
      by_cases hid : id < UInt64.size
      · have hrange := (inRange_iff id).2 hid
        rw [dif_pos hrange, if_pos hid]
        have hsource : (Number.int id hrange).source = .number (.int id hrange) :=
          Number.source_int id hrange
        simp only [Json.reread, Json.rereadMembers, Scan.nested, Nat.succ_ne_zero, if_false,
          hsource, read?, Source.choice?, Key.written, Option.map_some, Source.natural?]
        rw [if_pos ⟨Int.natCast_nonneg id, Int.ofNat_lt.2 hid⟩]
        rfl
      · have hrange : ¬ Number.InRange id := fun h => hid ((inRange_iff id).1 h)
        rw [dif_neg hrange, if_neg hid]
        rfl

/-- Null, truth values and texts last; a reference lasts if it fits a word, and
a number if it is finite and its characters stand for it. -/
theorem durable_iff (v : Value) : v.Durable ↔ match v with
    | .number x => ∃ y, x = .finite y ∧ y.reread? = some x
    | .ref id => id < UInt64.size
    | _ => True := by
  cases v with
  | number x =>
      cases x with
      | finite x =>
          simp only [Durable, reread?, Option.map_eq_some_iff, Value.number.injEq]
          constructor
          · rintro ⟨y, hy, rfl⟩
            exact ⟨x, rfl, hy⟩
          · rintro ⟨y, hy, hread⟩
            cases hy
            exact ⟨_, hread, rfl⟩
      | infinite negative => simp [Durable, reread?]
      | nan => simp [Durable, reread?]
  | ref id =>
      simp only [Durable, reread?]
      by_cases hid : id < UInt64.size
      · simp [hid]
      · simp [hid]
  | _ => simp [Durable, reread?]

end Value

/-! ## Lists and tables -/

theorem rereadItems_eq_map (depth : Nat) (items : List Json) :
    Json.rereadItems depth items = items.map (Json.reread depth) := by
  induction items with
  | nil => rfl
  | cons item rest ih => rw [Json.rereadItems, List.map_cons, ih]

/-- Items read one by one are read as a list. -/
theorem list?_reread {α β : Type} {read : Source → Option β} {write : α → Json}
    {again : α → Option β} {depth : Nat} (h : ∀ a, read ((write a).reread depth) = again a)
    (items : List α) :
    Source.list? read (Json.reread (depth + 1) (.array (items.map write))) = items.mapM again := by
  simp only [Json.reread, Scan.nested, Nat.succ_ne_zero, if_false, Source.list?,
    rereadItems_eq_map, Nat.add_sub_cancel, List.map_map]
  induction items with
  | nil => rfl
  | cons item rest ih => rw [List.map_cons, List.mapM_cons, List.mapM_cons, ih, Function.comp, h]

theorem readableKeys?_reread {α : Type} (write : α → Json) (depth : Nat)
    (entries : List (String × α)) :
    Source.readableKeys? (Json.rereadMembers depth (entries.map fun e => (e.1, write e.2)))
      = some (entries.map fun e => (e.1, (write e.2).reread depth)) := by
  induction entries with
  | nil => rfl
  | cons e rest ih =>
      rw [List.map_cons, Json.rereadMembers, Source.readableKeys?, ih]
      rfl

/-- A record that was written as an object is read back field by field. -/
theorem record?_reread {names : List String} {members : List (String × Json)}
    (hnames : ∀ name ∈ names, members.countP (·.1 == name) ≤ 1) (depth : Nat) :
    Source.record? names (Json.reread (depth + 1) (.object members)) =
      some fun name => (Entries.find? name members).map (Json.reread depth) := by
  have hkeys : Source.readableKeys? (Json.rereadMembers depth members) =
      some (members.map fun e => (e.1, e.2.reread depth)) := by
    have hmapped := readableKeys?_reread id depth members
    rwa [show members.map (fun e => (e.1, id e.2)) = members from List.map_id _] at hmapped
  have hcounts : names.all (fun name =>
      (members.map fun e => (e.1, e.2.reread depth)).countP (·.1 == name) ≤ 1) = true := by
    rw [List.all_eq_true]
    intro name hname
    rw [List.countP_map]
    exact decide_eq_true (hnames name hname)
  rw [Json.reread, Scan.nested, if_neg (Nat.succ_ne_zero depth), Source.record?,
    Nat.add_sub_cancel, hkeys]
  simp only [Option.bind_eq_bind, Option.bind_some, if_pos hcounts, Entries.find?_map]

/-- Members read one by one are read as a table. -/
theorem table?_reread {α β : Type} {read : Source → Option β} {write : α → Json}
    {again : α → Option β} {depth : Nat} (h : ∀ a, read ((write a).reread depth) = again a)
    (d : Dict String α) :
    Source.table? read (Json.reread (depth + 1) (.object (d.entries.map fun e => (e.1, write e.2))))
      = d.mapM? again := by
  simp only [Json.reread, Scan.nested, Nat.succ_ne_zero, if_false, Source.table?,
    Nat.add_sub_cancel, readableKeys?_reread, Option.bind_eq_bind, Option.bind_some, Dict.mapM?]
  have hentries : (d.entries.map fun e => (e.1, (write e.2).reread depth)).mapM
      (fun m => (read m.2).map (m.1, ·)) = d.entries.mapM fun e => (again e.2).map (e.1, ·) := by
    induction d.entries with
    | nil => rfl
    | cons e rest ih => rw [List.map_cons, List.mapM_cons, List.mapM_cons, ih, h]
  rw [hentries]
  cases d.entries.mapM fun e => (again e.2).map (e.1, ·) <;> rfl

/-! ## Nodes and files -/

theorem Node.read?_written (node : Node) (depth : Nat) :
    read? (node.written.reread (depth + 3)) = node.mapM? Value.reread? := by
  cases node with
  | object fields =>
      have htable := table?_reread (fun v => v.read?_written depth) fields
      simp only [written, Json.reread, Json.rereadMembers, Scan.nested, Nat.succ_ne_zero, if_false,
        Nat.add_sub_cancel, read?, Source.choice?, Key.written, Option.map_some, mapM?] at htable ⊢
      rw [← htable]
      rfl
  | list items =>
      have hlist := list?_reread (fun v => v.read?_written depth) items
      simp only [written, Json.reread, Json.rereadMembers, Scan.nested, Nat.succ_ne_zero, if_false,
        Nat.add_sub_cancel, read?, Source.choice?, Key.written, Option.map_some, mapM?] at hlist ⊢
      rw [← hlist]
      rfl

theorem Persisted.read?_written (p : Persisted) (depth : Nat) :
    read? (p.written.reread (depth + 5)) = p.mapM? Value.reread? := by
  have hroots := table?_reread (fun v => v.read?_written (depth + 2)) p.roots
  have hnodes := list?_reread (fun n : Node => n.read?_written depth) p.nodes
  simp only [written, Json.reread, Json.rereadMembers, Scan.nested, Nat.succ_ne_zero, if_false,
    Nat.add_sub_cancel, read?, Source.record?, Source.readableKeys?, Key.written, mapM?]
    at hroots hnodes ⊢
  rw [← hroots, ← hnodes]
  rfl

/-- Reading a graph's file is reading every value of the written form back. -/
theorem Persisted.read?_fileText (g : Graph) :
    (Source.parse? (Symbols.ofString g.fileText)).bind read? = g.encode.mapM? Value.reread? := by
  rw [Graph.fileText, Source.parse?_toPrettyText, Option.bind_some]
  -- Five levels of nesting are all a scope's file has, of the many the reader allows.
  exact g.encode.read?_written 122

/-! ## Maps that keep references -/

/-- A map of values that keeps references and null, and makes nothing else a
reference. -/
structure Value.KeepsRefs (f : Value → Value) : Prop where
  null : f .null = .null
  ref : ∀ id, f (.ref id) = .ref id
  of_ref : ∀ v id, f v = .ref id → v = .ref id

/-- The graph with every value replaced by its image. -/
def Graph.map (f : Value → Value) (g : Graph) : Graph :=
  ⟨g.nodes.map (Node.map f), g.roots.map f⟩

section

variable {f : Value → Value}

/-- A value and its image are one reference, or neither is one. -/
theorem Value.KeepsRefs.ref_or_ne (hf : Value.KeepsRefs f) (v : Value) :
    (∃ id, v = .ref id ∧ f v = .ref id) ∨ (∀ id, v ≠ .ref id) ∧ ∀ id, f v ≠ .ref id := by
  by_cases hv : ∃ id, v = .ref id
  · rcases hv with ⟨id, rfl⟩
    exact .inl ⟨id, rfl, hf.ref id⟩
  · exact .inr ⟨fun id h => hv ⟨id, h⟩, fun id h => hv ⟨id, hf.of_ref v id h⟩⟩

theorem Dict.map_comm {k : Value → Value} (h : ∀ v, k (f v) = f (k v)) (d : Dict String Value) :
    (d.map f).map k = (d.map k).map f := by
  apply Dict.ext_entries
  simp only [Dict.map, List.map_map, Function.comp_def, h]

theorem Node.map_comm {k : Value → Value} (h : ∀ v, k (f v) = f (k v)) (node : Node) :
    (node.map f).map k = (node.map k).map f := by
  cases node with
  | object fields => rw [map, map, map, map, Dict.map_comm h]
  | list items => simp only [map, List.map_map, Function.comp_def, h]

namespace Numbering

/-- Nothing but a reference is visited. -/
theorem visit_of_ne (n : Numbering) {v : Value} (hv : ∀ id, v ≠ .ref id) : n.visit v = n := by
  cases v with
  | ref id => exact absurd rfl (hv id)
  | _ => rfl

/-- Nothing but a reference is renumbered. -/
theorem renumber_of_ne (n : Numbering) {v : Value} (hv : ∀ id, v ≠ .ref id) :
    n.renumber v = v := by
  cases v with
  | ref id => exact absurd rfl (hv id)
  | _ => rfl

theorem visit_map (hf : Value.KeepsRefs f) (n : Numbering) (v : Value) :
    n.visit (f v) = n.visit v := by
  rcases hf.ref_or_ne v with ⟨id, rfl, himage⟩ | ⟨hv, himage⟩
  · rw [himage]
  · rw [visit_of_ne n hv, visit_of_ne n himage]

theorem foldl_visit_map (hf : Value.KeepsRefs f) (n : Numbering) (vs : List Value) :
    (vs.map f).foldl visit n = vs.foldl visit n := by
  induction vs generalizing n with
  | nil => rfl
  | cons v rest ih => rw [List.map_cons, List.foldl_cons, List.foldl_cons, visit_map hf, ih]

theorem spread_map (hf : Value.KeepsRefs f) (nodes : Array Node) (rounds position : Nat)
    (n : Numbering) :
    spread (nodes.map (Node.map f)) rounds position n = spread nodes rounds position n := by
  induction rounds generalizing position n with
  | zero => rfl
  | succ rounds ih =>
      rw [spread, spread]
      cases n.order[position]? with
      | none => rfl
      | some id =>
          have hchildren : (((nodes.map (Node.map f))[id]?.map Node.children).getD [])
              = ((nodes[id]?.map Node.children).getD []).map f := by
            rw [Array.getElem?_map]
            cases nodes[id]? with
            | none => rfl
            | some node => exact Node.children_map f node
          simp only [hchildren, foldl_visit_map hf, ih]

theorem renumber_map (hf : Value.KeepsRefs f) (n : Numbering) (v : Value) :
    n.renumber (f v) = f (n.renumber v) := by
  rcases hf.ref_or_ne v with ⟨id, rfl, himage⟩ | ⟨hv, himage⟩
  · rw [himage]
    simp only [renumber]
    split
    · rw [hf.ref]
    · rw [hf.null]
  · rw [renumber_of_ne n hv, renumber_of_ne n himage]

end Numbering

namespace Graph

theorem numbering_map (hf : Value.KeepsRefs f) (g : Graph) :
    (g.map f).numbering = g.numbering := by
  simp only [numbering, map, Array.size_map, Dict.values_map, Numbering.foldl_visit_map hf,
    Numbering.spread_map hf]

/-- The written form of the image is the image of the written form. -/
theorem encode_map (hf : Value.KeepsRefs f) (g : Graph) : (g.map f).encode = g.encode.map f := by
  have hcomm : ∀ v, g.numbering.renumber (f v) = f (g.numbering.renumber v) :=
    Numbering.renumber_map hf g.numbering
  simp only [encode, numbering_map hf, Persisted.map, Persisted.mk.injEq, List.map_filterMap]
  refine ⟨Dict.map_comm hcomm g.roots, congrArg (List.filterMap · _) (funext fun id => ?_)⟩
  simp only [map, Array.getElem?_map]
  cases g.nodes[id]? with
  | none => rfl
  | some node => exact congrArg some (Node.map_comm hcomm node)

theorem wellFormed_map (hf : Value.KeepsRefs f) {g : Graph} (hg : g.WellFormed) :
    (g.map f).WellFormed := by
  have hinside : ∀ v : Value, v.Inside g.nodes.size → (f v).Inside (g.map f).nodes.size := by
    intro v hv
    have hsize : (g.map f).nodes.size = g.nodes.size := Array.size_map
    cases himage : f v with
    | ref id =>
        have hsame := hf.of_ref v id himage
        subst hsame
        rw [hsize]
        exact hv
    | _ => trivial
  refine ⟨fun v hv => ?_, fun n hn v hv => ?_⟩
  · simp only [map, Dict.values_map] at hv
    rcases List.mem_map.1 hv with ⟨w, hw, rfl⟩
    exact hinside w (hg.roots w hw)
  · rcases Array.mem_map.1 hn with ⟨node, hnode, rfl⟩
    rw [Node.children_map] at hv
    rcases List.mem_map.1 hv with ⟨w, hw, rfl⟩
    exact hinside w (hg.nodes node hnode w hw)

end Graph

end

/-! ## Reloading -/

namespace Value

/-- What a value is read back as, or the value itself. -/
def reread (v : Value) : Value := v.reread?.getD v

theorem keepsRefs_reread : KeepsRefs reread := by
  refine ⟨rfl, fun id => ?_, fun v id h => ?_⟩
  · simp only [reread, reread?]
    split <;> rfl
  · cases v with
    | ref n =>
        simp only [reread, reread?] at h
        split at h <;> exact h
    | number x =>
        cases x with
        | finite x =>
            simp only [reread, reread?] at h
            cases hread : x.reread? with
            | none =>
                rw [hread] at h
                cases h
            | some y =>
                rw [hread] at h
                cases h
        | _ => cases h
    | _ => cases h

end Value

/-- The values of a written form refer to nothing outside if its graph does. -/
theorem Persisted.inside_values {p : Persisted} (hp : p.toGraph.WellFormed) {v : Value}
    (hv : v ∈ p.values) : v.Inside p.nodes.length := by
  rcases List.mem_append.1 hv with hv | hv
  · exact hp.roots v hv
  · rcases List.mem_flatMap.1 hv with ⟨node, hnode, hv⟩
    exact hp.nodes node (List.mem_toArray.2 hnode) v hv

namespace Graph

variable {g : Graph}

/-- The graph that is loaded after a graph was written: the one its file is
read as, or the empty one. -/
def reloaded (g : Graph) : Graph :=
  ((g.encode.mapM? Value.reread?).bind fun p => (decode p).toOption).getD empty

/-- If every value is read back, the graph that is loaded is written like the
one before, up to what its values were read back as. -/
theorem encode_reloaded (hg : g.WellFormed) (h : ∀ v ∈ g.encode.values, v.reread?.isSome) :
    g.reloaded.encode = g.encode.map Value.reread := by
  have hread : g.encode.mapM? Value.reread? = some (g.encode.map Value.reread) := by
    refine Persisted.mapM?_eq_some fun v hv => ?_
    rcases Option.isSome_iff_exists.1 (h v hv) with ⟨w, hw⟩
    rw [Value.reread, hw, Option.getD_some]
  have hgraph : (g.encode.map Value.reread).toGraph = g.encode.toGraph.map Value.reread := by
    simp [Persisted.toGraph, Persisted.map, map]
  have hdecode : decode (g.encode.map Value.reread) = .ok (g.encode.toGraph.map Value.reread) := by
    refine decode_eq_ok_iff_toGraph.2 ⟨hgraph.symm, ?_⟩
    rw [hgraph]
    exact wellFormed_map Value.keepsRefs_reread g.wellFormed_encode
  rw [reloaded, hread, Option.bind_some, hdecode]
  change (g.encode.toGraph.map Value.reread).encode = _
  rw [encode_map Value.keepsRefs_reread, encode_toGraph_encode hg]

/-- One value that is not read back loses the scope. -/
theorem reloaded_eq_empty {v : Value} (hv : v ∈ g.encode.values) (h : v.reread? = none) :
    g.reloaded = empty := by
  rw [reloaded, Persisted.mapM?_eq_none hv h]
  rfl

theorem values_encode_empty : empty.encode.values = [] := by decide

/-- The graph that is loaded is written like the one before exactly if every
value of the written form lasts. -/
theorem encode_reloaded_iff (hg : g.WellFormed) :
    g.reloaded.encode = g.encode ↔ ∀ v ∈ g.encode.values, v.Durable := by
  by_cases hread : ∀ v ∈ g.encode.values, v.reread?.isSome
  · -- Everything is read back, so the written forms can be compared value by value.
    rw [encode_reloaded hg hread, Persisted.map_eq_self_iff]
    refine forall₂_congr fun v hv => ?_
    rcases Option.isSome_iff_exists.1 (hread v hv) with ⟨w, hw⟩
    rw [Value.reread, Value.Durable, hw, Option.getD_some, Option.some.injEq]
  · -- Nothing is read back, although something was written.
    rcases not_forall₂.1 hread with ⟨v, hv, hnone⟩
    have hlost : v.reread? = none := Option.not_isSome_iff_eq_none.1 hnone
    rw [reloaded_eq_empty hv hlost]
    constructor
    · intro h
      rw [← h, values_encode_empty] at hv
      exact absurd hv List.not_mem_nil
    · intro h
      have hkept : v.reread? = some v := h v hv
      rw [hlost] at hkept
      cases hkept

/-- If the finite numbers are read back as themselves and positions fit a word,
what is left is that every number is finite. -/
theorem encode_reloaded_iff_finite (hg : g.WellFormed)
    (hnumbers : ∀ x, .number (.finite x) ∈ g.encode.values → x.reread? = some (.finite x))
    (hsize : g.encode.nodes.length ≤ UInt64.size) :
    g.reloaded.encode = g.encode ↔ ∀ x, .number x ∈ g.encode.values → ∃ y, x = .finite y := by
  rw [encode_reloaded_iff hg]
  constructor
  · intro h x hx
    rcases (Value.durable_iff _).1 (h _ hx) with ⟨y, hy, -⟩
    exact ⟨y, hy⟩
  · intro h v hv
    rw [Value.durable_iff]
    cases v with
    | number x =>
        rcases h x hv with ⟨y, rfl⟩
        exact ⟨y, rfl, hnumbers y hv⟩
    | ref id =>
        -- A reference of the written form is a position among its nodes.
        have hinside : id < g.encode.nodes.length := Persisted.inside_values g.wellFormed_encode hv
        exact Nat.lt_of_lt_of_le hinside hsize
    | _ => trivial

end Graph

end ActionChain
