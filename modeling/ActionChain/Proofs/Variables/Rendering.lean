import ActionChain.Chain.Template
import ActionChain.Proofs.Variables.Canonical
import ActionChain.Proofs.Variables.Import

/-!
# What a Reader Can Tell

Two scopes with one written form look the same to whoever reads them, and
stay that way when the same thing is written to both.

Reading follows references and shows no positions, so values that match under
a partner relation have the same tree. The one place where positions are
compared is the test for a circle, and it compares them with the positions on
the path, whose partners are the path of the other side. The fuels of the two
walks differ with the sizes of the arenas; a path never repeats a node, so
neither walk runs out.

Having one written form is the relation that a caller can check, and matching
under some partner relation is the one that proofs use. `Graph.Alike` is the
former, and both directions between them are `Graph.Alike.exists_matches` and
`Graph.Matches.alike`.

## Main definitions

* `Graph.Alike`, `Variables.Alike`: well-formed and written the same.

## Theorems

* `Arena.walk_eq_of_matches`: matching values have one tree.
* `Graph.toJson_eq_of_matches`, `Graph.display_eq_of_matches`: for graphs.
* `Template.render_eq`: a template reads the same in alike scopes.
* `Graph.Matches.set`: binding matching values keeps graphs alike.
* `Graph.Alike.compact_left`, `Graph.Alike.compact_right`: compaction keeps
  graphs alike.
-/

namespace ActionChain

namespace Arena

variable {ρ : Nat → Nat → Prop} {ns ms : Array Node}

theorem Matches.inside_left (ha : Arena.Matches ρ ns ms) {v w : Value} (hvw : v.Matches ρ w) :
    v.Inside ns.size := by
  cases hvw with
  | ref hab => exact ha.lt_left hab
  | _ => trivial

theorem Matches.inside_right (ha : Arena.Matches ρ ns ms) {v w : Value} (hvw : v.Matches ρ w) :
    w.Inside ms.size :=
  ha.symm.inside_left hvw.symm

/-- A path of distinct nodes that have partners leaves fuel to go on, as long
as fuel and path together exceed the arena. -/
theorem exists_fuel (ha : Arena.Matches ρ ns ms) {path path' : List Nat} {fuel : Nat}
    (hpath : List.Forall₂ ρ path path') (hnodup : path.Nodup)
    (hfuel : ns.size < fuel + path.length) : ∃ k, fuel = k + 1 := by
  have hlen : path.length ≤ ns.size := by
    refine length_le_of_nodup_of_lt hnodup fun id hid => ?_
    rcases List.mem_iff_getElem?.1 hid with ⟨k, hk⟩
    have hrel := forall₂_getElem? hpath k
    rw [hk] at hrel
    rcases exists_of_rel_some hrel with ⟨id', _, hab⟩
    exact ha.lt_left hab
  exact ⟨fuel - 1, by omega⟩

/-- Matching values have one tree below matching paths, whatever the fuels are
as long as they last. -/
theorem walk_eq_of_matches (ha : Arena.Matches ρ ns ms) {fuel fuel' : Nat}
    {path path' : List Nat} {v w : Value} (hvw : v.Matches ρ w)
    (hpath : List.Forall₂ ρ path path') (hnodup : path.Nodup) (hnodup' : path'.Nodup)
    (hfuel : ns.size < fuel + path.length) (hfuel' : ms.size < fuel' + path'.length) :
    walk ns fuel path v = walk ms fuel' path' w := by
  -- The induction is on the fuel of one side; the other is known to last as well.
  induction fuel generalizing fuel' path path' v w with
  | zero =>
      rcases exists_fuel ha hpath hnodup hfuel with ⟨k, hk⟩
      omega
  | succ fuel ih =>
      rcases exists_fuel ha.symm (List.Forall₂.flip hpath) hnodup' hfuel' with ⟨fuel', rfl⟩
      cases hvw with
      | null => rfl
      | bool b => rfl
      | number x => rfl
      | text s => rfl
      | @ref a b hab =>
          have hmem : a ∈ path ↔ b ∈ path' := List.rel_mem ha.unique hab hpath
          simp only [walk]
          -- A circle closes on both sides or on neither, because partners are unique.
          by_cases hin : a ∈ path
          · rw [if_pos hin, if_pos (hmem.1 hin)]
          · rw [if_neg hin, if_neg fun hb => hin (hmem.2 hb)]
            -- The paths grow by the two partners, and one unit of fuel goes.
            have hbelow : ∀ v w, v.Matches ρ w →
                walk ns fuel (a :: path) v = walk ms fuel' (b :: path') w := by
              intro v w hvw
              refine ih hvw (.cons hab hpath) (List.nodup_cons.2 ⟨hin, hnodup⟩)
                (List.nodup_cons.2 ⟨fun hb => hin (hmem.2 hb), hnodup'⟩) ?_ ?_
              · rw [List.length_cons]
                omega
              · rw [List.length_cons]
                omega
            rcases ha.nodes a b hab with ⟨n, m, hn, hm, hnm⟩
            rw [hn, hm]
            cases hnm with
            | object hfields =>
                refine congrArg Json.object ?_
                rw [← List.forall₂_eq_eq_eq, List.forall₂_map_left_iff,
                  List.forall₂_map_right_iff]
                exact List.Forall₂.imp (fun _ _ he => Prod.ext he.1 (hbelow _ _ he.2)) hfields
            | list hitems =>
                refine congrArg Json.array ?_
                rw [← List.forall₂_eq_eq_eq, List.forall₂_map_left_iff,
                  List.forall₂_map_right_iff]
                exact List.Forall₂.imp hbelow hitems

end Arena

namespace Graph

variable {ρ : Nat → Nat → Prop} {g h : Graph} {v w : Value}

theorem toJson_eq_of_matches (hgh : g.Matches ρ h) (hvw : v.Matches ρ w) :
    g.toJson v = h.toJson w :=
  Arena.walk_eq_of_matches hgh.arena hvw .nil List.nodup_nil List.nodup_nil
    (by simp) (by simp)

theorem display_eq_of_matches (hgh : g.Matches ρ h) (hvw : v.Matches ρ w) :
    g.display v = h.display w := by
  cases hvw with
  | ref hab => simp only [display, toJson_eq_of_matches hgh (.ref hab)]
  | _ => rfl

/-! ## Alike -/

/-- Both graphs are well-formed, and they are written the same. -/
structure Alike (g h : Graph) : Prop where
  left : g.WellFormed
  right : h.WellFormed
  encode : g.encode = h.encode

namespace Alike

theorem refl (hg : g.WellFormed) : g.Alike g := ⟨hg, hg, rfl⟩

theorem exists_matches (hgh : g.Alike h) : ∃ ρ, g.Matches ρ h :=
  (encode_eq_encode_iff hgh.left hgh.right).1 hgh.encode

/-- Compaction keeps graphs alike, whether or not it does anything, on one side
or on the other. -/
theorem compact_left (hgh : g.Alike h) : g.compact.1.Alike h :=
  ⟨wellFormed_compact hgh.left, hgh.right, (encode_compact hgh.left).trans hgh.encode⟩

theorem compact_right (hgh : g.Alike h) : g.Alike h.compact.1 :=
  ⟨hgh.left, wellFormed_compact hgh.right, hgh.encode.trans (encode_compact hgh.right).symm⟩

end Alike

theorem Matches.alike (hgh : g.Matches ρ h) (hg : g.WellFormed) (hh : h.WellFormed) :
    g.Alike h :=
  ⟨hg, hh, encode_eq_of_matches hgh⟩

theorem set_of_inside (hv : v.Inside g.nodes.size) (key : String) :
    g.set key v = .ok { g with roots := g.roots.insert key v } := by
  rw [Graph.set, check_eq_ok_iff.2 hv]

/-- Binding a key to matching values succeeds on both sides and keeps the
graphs alike. -/
theorem Matches.set (hgh : g.Matches ρ h) (hg : g.WellFormed) (hh : h.WellFormed)
    (hvw : v.Matches ρ w) (key : String) :
    ∃ g' h', g.set key v = .ok g' ∧ h.set key w = .ok h' ∧ g'.Alike h' := by
  have hsetg := set_of_inside (hgh.arena.inside_left hvw) key
  have hseth := set_of_inside (hgh.arena.inside_right hvw) key
  refine ⟨_, _, hsetg, hseth, ?_⟩
  exact Matches.alike (ρ := ρ) ⟨hgh.arena, hgh.roots.insert key hvw⟩
    (wellFormed_set hg hsetg) (wellFormed_set hh hseth)

end Graph

/-- Both scopes are alike. -/
def Variables.Alike (vars vars' : Variables) : Prop :=
  ∀ s, (vars.scope s).Alike (vars'.scope s)

theorem Variables.Alike.update {vars vars' : Variables} (hvars : vars.Alike vars') (s : Scope)
    {g h : Graph} (hgh : g.Alike h) : (vars.update s g).Alike (vars'.update s h) := by
  intro t
  rw [Variables.scope_update, Variables.scope_update]
  by_cases hst : s = t
  · rw [if_pos hst, if_pos hst]
    exact hgh
  · rw [if_neg hst, if_neg hst]
    exact hvars t

namespace Template

variable {vars vars' : Variables}

theorem Placeholder.value_eq (hvars : vars.Alike vars') (subject : Subject) (args : List String)
    (p : Placeholder) : p.value subject args vars = p.value subject args vars' := by
  cases p with
  | keyed s key =>
      rcases (hvars s).exists_matches with ⟨ρ, hgh⟩
      have hget := hgh.get? (String.ofList (Text.trimBlanks key))
      have hshown := map_eq_of_rel hget fun v w hvw => Graph.display_eq_of_matches hgh hvw
      simp only [Placeholder.value, hshown]
  | _ => rfl

/-- A template reads the same in alike scopes. -/
theorem render_eq (hvars : vars.Alike vars') (template : String) (subject : Subject)
    (args : List String) :
    render template subject args vars = render template subject args vars' := by
  have hpiece : Piece.value subject args vars = Piece.value subject args vars' := by
    funext piece
    cases piece with
    | literal c => rfl
    | placeholder p => simp only [Piece.value, p.value_eq hvars]
  rw [render, render, hpiece]

end Template

end ActionChain
