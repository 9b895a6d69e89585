import ActionChain.Proofs.Variables.Growing
import ActionChain.Variables.Scope

/-!
# Variables as a Table

What is left of the variables when the arena is forgotten: a finite table from
scopes and keys to plain values. A scalar is a plain value as it is; a
structured value counts as its tree.

The table says everything that can be read: the text a message shows and the
tree a comparison looks at are those of the plain value. And writing to the
variables is writing to the table. This is where the arena could betray the
idea, as one write adds nodes to an arena that the values of other keys point
into, and these may share nodes or run in circles. It does not, because a graph
that grows keeps the tree of every value it had.

So a write is to be noticed under its own key and nowhere else.

## Main definitions

* `Plain`: a scalar or a tree.
* `Plain.ofJson`, `Plain.toJson`, `Plain.display`: from JSON, to JSON and to
  text.
* `Table`: plain values by scope and key.
* `Graph.plain`, `Variables.table`: what a graph makes of a value, and the table
  of the variables.

## Theorems

* `Graph.toJson_plain`, `Graph.display_plain`: plain values say what can be read.
* `Graph.plain_importJson`: a tree that was copied in counts as what it was.
* `Variables.Alike.table_eq`: scopes that are written the same have one table.
* `Variables.table_update`: one more root is one more entry.
-/

namespace ActionChain

/-! ## Plain values -/

/-- What a key stands for when the arena is forgotten. -/
inductive Plain where
  | null
  | bool (b : Bool)
  | number (x : Binary64)
  | text (s : String)
  | tree (j : Json)

namespace Plain

/-- What a JSON value counts as once it is stored: numbers are floating-point
numbers from then on. -/
def ofJson : Json → Plain
  | .null => .null
  | .bool b => .bool b
  | .number n => .number n.toBinary64
  | .string s => .text s
  | structured => .tree structured.stored

/-- The JSON value of a plain value. -/
def toJson : Plain → Json
  | .null => .null
  | .bool b => .bool b
  | .number x => Value.numberJson x
  | .text s => .string s
  | .tree j => j

/-- The text of a plain value in a message. -/
def display : Plain → String
  | .null => ""
  | .bool b => if b then "true" else "false"
  | .number x => x.message
  | .text s => s
  | .tree j => j.toText

theorem toJson_ofJson (j : Json) : (ofJson j).toJson = j.stored := by
  cases j <;> simp [ofJson, toJson, Json.stored, Json.mapNumbers]

end Plain

namespace Graph

variable {g : Graph}

/-- What a value of a graph counts as. -/
def plain (g : Graph) : Value → Plain
  | .null => .null
  | .bool b => .bool b
  | .number x => .number x
  | .text s => .text s
  | .ref id => .tree (g.toJson (.ref id))

theorem toJson_plain (g : Graph) (v : Value) : (g.plain v).toJson = g.toJson v := by
  cases v <;> rfl

theorem display_plain (g : Graph) (v : Value) : (g.plain v).display = g.display v := by
  cases v <;> rfl

/-- Importing leaves what the values from before count as. -/
theorem plain_importJson_of_inside (hg : g.WellFormed) (j : Json) {v : Value}
    (hv : v.Inside g.nodes.size) : (g.importJson j).1.plain v = g.plain v := by
  cases v with
  | ref id => exact congrArg Plain.tree (toJson_importJson_of_inside hg j hv)
  | _ => rfl

/-- A tree that was copied in counts as what it was. -/
theorem plain_importJson (g : Graph) {j : Json} (hj : j.Ordered) :
    (g.importJson j).1.plain (g.importJson j).2 = .ofJson j := by
  cases j with
  | array items => exact congrArg Plain.tree (toJson_importJson g hj)
  | object members => exact congrArg Plain.tree (toJson_importJson g hj)
  | _ => rfl

theorem plain_eq_of_matches {ρ : Nat → Nat → Prop} {h : Graph} {v w : Value}
    (hgh : g.Matches ρ h) (hvw : v.Matches ρ w) : g.plain v = h.plain w := by
  cases hvw with
  | ref hab => exact congrArg Plain.tree (toJson_eq_of_matches hgh (.ref hab))
  | _ => rfl

theorem inside_of_get? (hg : g.WellFormed) {key : String} {v : Value} (h : g.get? key = some v) :
    v.Inside g.nodes.size :=
  hg.roots v (List.mem_map_of_mem (Entries.mem_of_find?_eq_some h))

end Graph

/-! ## Tables -/

/-- Plain values by scope and key. -/
def Table : Type := Scope → Dict String Plain

namespace Table

/-- The plain value under a key of a scope. -/
def get? (t : Table) (s : Scope) (key : String) : Option Plain := (t s).get? key

/-- The table with a key of a scope bound to a plain value. -/
def set (t : Table) (s : Scope) (key : String) (p : Plain) : Table :=
  fun s' => if s' = s then (t s).insert key p else t s'

/-- A write shows under its own key and nowhere else. -/
theorem get?_set (t : Table) (s s' : Scope) (key key' : String) (p : Plain) :
    (t.set s key p).get? s' key' = if s' = s ∧ key' = key then some p else t.get? s' key' := by
  by_cases hs : s' = s
  · subst hs
    simp [get?, set]
  · simp [get?, set, hs]

theorem ext {t t' : Table} (h : ∀ s key, t.get? s key = t'.get? s key) : t = t' :=
  funext fun s => Dict.ext_get? (h s)

end Table

namespace Variables

variable {vars : Variables}

/-- The table of the variables. -/
def table (vars : Variables) : Table := fun s => (vars.scope s).roots.map (vars.scope s).plain

theorem get?_table (vars : Variables) (s : Scope) (key : String) :
    vars.table.get? s key = ((vars.scope s).get? key).map (vars.scope s).plain :=
  Dict.get?_map _ _ _

/-- Scopes that are written the same have one table. -/
theorem Alike.table_eq {vars' : Variables} (hvars : vars.Alike vars') :
    vars.table = vars'.table := by
  refine Table.ext fun s key => ?_
  rcases (hvars s).exists_matches with ⟨ρ, hgh⟩
  rw [get?_table, get?_table]
  exact map_eq_of_rel (hgh.get? key) fun v w hvw => Graph.plain_eq_of_matches hgh hvw

theorem wellFormed_iff : vars.WellFormed ↔ ∀ s, (vars.scope s).WellFormed := by
  constructor
  · rintro ⟨hserver, hglobal⟩ (_ | _)
    · exact hserver
    · exact hglobal
  · intro h
    exact ⟨h .server, h .global⟩

/-- A scope with one more root, over an arena that keeps what the old roots
count as. -/
theorem table_update (hvars : vars.WellFormed) (s : Scope) (g : Graph) (key : String) (v : Value)
    (hroots : g.roots = (vars.scope s).roots)
    (hold : ∀ w : Value, w.Inside (vars.scope s).nodes.size → g.plain w = (vars.scope s).plain w) :
    (vars.update s { g with roots := g.roots.insert key v }).table =
      vars.table.set s key (g.plain v) := by
  refine Table.ext fun s' key' => ?_
  rw [Table.get?_set, get?_table, get?_table, scope_update]
  by_cases hs : s = s'
  -- In the same scope the other keys are read in the new arena, through old values.
  · subst hs
    rw [if_pos rfl, Graph.get?, Dict.get?_insert]
    by_cases hkey : key' = key
    · rw [if_pos hkey, if_pos ⟨rfl, hkey⟩]
      rfl
    · rw [if_neg hkey, if_neg fun h => hkey h.2, hroots]
      refine Option.map_congr fun w hw => hold w ?_
      exact Graph.inside_of_get? (wellFormed_iff.1 hvars s) hw
  · rw [if_neg hs, if_neg fun h => hs h.1.symm]

theorem wellFormed_update (hvars : vars.WellFormed) (s : Scope) {g : Graph} (hg : g.WellFormed) :
    (vars.update s g).WellFormed := by
  refine wellFormed_iff.2 fun s' => ?_
  rw [scope_update]
  by_cases hs : s = s'
  · rw [if_pos hs]
    exact hg
  · rw [if_neg hs]
    exact wellFormed_iff.1 hvars s'

end Variables

end ActionChain
