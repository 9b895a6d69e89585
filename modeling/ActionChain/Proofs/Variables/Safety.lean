import ActionChain.Proofs.Variables.Import
import ActionChain.Proofs.Variables.RoundTrip
import ActionChain.Proofs.Variables.Unguarded
import ActionChain.Storage

/-!
# Reference Safety

No sequence of writes ever leaves a reference that leads outside the arena.

A writer holds one graph and changes it in place, so what a failed write has
done up to the failure stays done. `Edit.inPlace` is a write of that kind: its
statements run one after the other on a graph that is kept when one of them
fails. `Edit.attempt` is the same write as the operations of the graph
describe it, with a graph in the answer only when the write succeeds. The two
agree because each write checks everything before it changes anything
(`Edit.inPlace_eq`), and a failed write therefore leaves the graph alone.

Every edit keeps a graph well-formed, whatever it is called with, and a
loaded graph is well-formed because decoding refuses all others. So every
graph that can be built is well-formed, and walking it never looks for a node
that is not there.

## Main definitions

* `Graph.Edit`: the calls that write to a graph.
* `Graph.Edit.inPlace`, `Graph.Edit.attempt`: carrying one out.
* `Graph.Built`: the graphs that loading and editing lead to.

## Theorems

* `Graph.wellFormed_setField`, `Graph.wellFormed_pushItem`: writing into a node
  keeps references inside the arena.
* `Graph.Edit.inPlace_eq`: checking comes before writing.
* `Graph.Built.wellFormed`: the invariant of every graph that can be built.
* `Graph.decode_isOk_iff`: which written forms decode.
* `Storage.built_loadScope`: whatever a file holds, its graph is built.
* `Graph.built_safe`: reference safety as a whole.
-/

namespace ActionChain

namespace Graph

variable {g g' : Graph}

/-! ## Writing into a node -/

/-- A graph stays well-formed when one of its nodes is exchanged for a node
whose references lie inside. -/
theorem wellFormed_setIfInBounds (hg : g.WellFormed) (id : Nat) {node : Node}
    (hnode : ∀ v ∈ node.children, v.Inside g.nodes.size) :
    WellFormed { g with nodes := g.nodes.setIfInBounds id node } := by
  refine ⟨?_, ?_⟩
  · intro v hv
    simp only [Array.size_setIfInBounds]
    exact hg.roots v hv
  · intro n hn v hv
    simp only [Array.size_setIfInBounds]
    rcases Array.mem_or_eq_of_mem_setIfInBounds hn with hold | hnew
    · exact hg.nodes n hold v hv
    · subst hnew
      exact hnode v hv

theorem wellFormed_setField {id : Nat} {key : String} {value : Value} (hg : g.WellFormed)
    (h : g.setField id key value = .ok g') : g'.WellFormed := by
  unfold setField at h
  split at h
  · cases h
  · rename_i hcheck
    split at h
    · rename_i fields hnode
      cases h
      refine wellFormed_setIfInBounds hg id fun v hv => ?_
      rcases values_insert hv with heq | hold
      · subst heq
        exact check_eq_ok_iff.1 hcheck
      · exact hg.nodes _ (Array.mem_of_getElem? hnode) v hold
    · cases h
    · cases h

theorem wellFormed_pushItem {id : Nat} {value : Value} (hg : g.WellFormed)
    (h : g.pushItem id value = .ok g') : g'.WellFormed := by
  unfold pushItem at h
  split at h
  · cases h
  · rename_i hcheck
    split at h
    · rename_i items hnode
      cases h
      refine wellFormed_setIfInBounds hg id fun v hv => ?_
      rcases List.mem_append.1 hv with hold | hnew
      · exact hg.nodes _ (Array.mem_of_getElem? hnode) v hold
      · rw [List.mem_singleton.1 hnew]
        exact check_eq_ok_iff.1 hcheck
    · cases h
    · cases h

/-! ## Edits -/

/-- A call that writes to a graph, with everything it is called with. -/
inductive Edit where
  | set (key : String) (value : Value)
  | remove (key : String)
  | alloc (node : Node)
  | setField (id : Nat) (key : String) (value : Value)
  | pushItem (id : Nat) (value : Value)
  | importJson (j : Json)
  | compact

namespace Edit

/-- What a call answers when it succeeds. -/
inductive Answer where
  | done
  | removed (old : Option Value)
  | made (value : Value)
  | dropped (nodes : Nat)

/-- Statements that read and write one graph, which stays as it is when one of
them fails. -/
abbrev Script := EStateM GraphError Graph

/-- Fails if a value leads outside the graph. -/
def require (value : Value) : Script Unit := do
  match (← get).check value with
  | .ok () => pure ()
  | .error e => throw e

/-- Fails at the first of several values that leads outside the graph. -/
def requireAll : List Value → Script Unit
  | [] => pure ()
  | v :: rest => do
    require v
    requireAll rest

/-- An edit as it is carried out, statement by statement. -/
def inPlace : Edit → Script Answer
  | .set key value => do
    require value
    modify fun g => { g with roots := g.roots.insert key value }
    pure .done
  | .remove key => do
    let old := (← get).get? key
    modify fun g => { g with roots := g.roots.erase key }
    pure (.removed old)
  | .alloc node => do
    requireAll node.children
    modify fun g => { g with nodes := g.nodes.push node }
    pure (.made (.ref ((← get).nodes.size - 1)))
  | .setField id key value => do
    require value
    match (← get).nodes[id]? with
    | some (.object fields) =>
      modify fun g =>
        { g with nodes := g.nodes.setIfInBounds id (.object (fields.insert key value)) }
      pure .done
    | some (.list _) => throw (.notAnObject id)
    | none => throw (.danglingRef id)
  | .pushItem id value => do
    require value
    match (← get).nodes[id]? with
    | some (.list items) =>
      modify fun g => { g with nodes := g.nodes.setIfInBounds id (.list (items ++ [value])) }
      pure .done
    | some (.object _) => throw (.notAList id)
    | none => throw (.danglingRef id)
  | .importJson j => do
    let (g, value) := (← get).importJson j
    EStateM.set g
    pure (.made value)
  | .compact => do
    let (g, n) := (← get).compact
    EStateM.set g
    pure (.dropped n)

/-- An edit with a graph in the answer only when it succeeds. -/
def attempt : Edit → Graph → Except GraphError (Graph × Answer)
  | .set key value, g => (g.set key value).map (·, .done)
  | .remove key, g => .ok (g.remove key, .removed (g.get? key))
  | .alloc node, g => (g.alloc node).map fun r => (r.1, .made r.2)
  | .setField id key value, g => (g.setField id key value).map (·, .done)
  | .pushItem id value, g => (g.pushItem id value).map (·, .done)
  | .importJson j, g => .ok ((g.importJson j).1, .made (g.importJson j).2)
  | .compact, g => .ok (g.compact.1, .dropped g.compact.2)

/-- The outcome of statements that fail before they write anything. -/
def settle (g : Graph) : Except GraphError (Graph × Answer) → EStateM.Result GraphError Graph Answer
  | .ok (g', answer) => .ok answer g'
  | .error e => .error e g

/-- The graph that statements leave behind. -/
def after (e : Edit) (g : Graph) : Graph :=
  match e.inPlace g with
  | .ok _ g' => g'
  | .error _ g' => g'

theorem get_bind {α : Type} (rest : Graph → Script α) (g : Graph) : (get >>= rest) g = rest g g :=
  rfl

/-- What follows a check happens if the check succeeds. -/
theorem require_bind {α : Type} (value : Value) (rest : Script α) (g : Graph) :
    (require value >>= fun _ => rest) g = match g.check value with
      | .ok () => rest g
      | .error e => .error e g := by
  unfold require
  rw [bind_assoc, get_bind]
  cases g.check value <;> rfl

theorem requireAll_bind {α : Type} (vs : List Value) (rest : Script α) (g : Graph) :
    (requireAll vs >>= fun _ => rest) g = match g.checkAll vs with
      | .ok () => rest g
      | .error e => .error e g := by
  induction vs with
  | nil => rfl
  | cons v vs ih =>
      rw [requireAll, bind_assoc, require_bind, checkAll]
      cases g.check v with
      | error e => rfl
      | ok u => exact ih

/-- Every edit checks first and writes afterwards. -/
theorem inPlace_eq (e : Edit) (g : Graph) : e.inPlace g = settle g (e.attempt g) := by
  cases e with
  | set key value =>
      rw [inPlace, require_bind, attempt, Graph.set]
      cases g.check value <;> rfl
  | remove key => rfl
  | alloc node =>
      rw [inPlace, requireAll_bind, attempt, Graph.alloc]
      cases g.checkAll node.children with
      | error e => rfl
      | ok u =>
          show EStateM.Result.ok (Answer.made (.ref ((g.nodes.push node).size - 1))) _ = _
          rw [Array.size_push, Nat.add_sub_cancel]
          rfl
  | setField id key value =>
      rw [inPlace, require_bind, attempt, Graph.setField]
      cases g.check value with
      | error e => rfl
      | ok u =>
          simp only [get_bind]
          cases g.nodes[id]? with
          | none => rfl
          | some node => cases node <;> rfl
  | pushItem id value =>
      rw [inPlace, require_bind, attempt, Graph.pushItem]
      cases g.check value with
      | error e => rfl
      | ok u =>
          simp only [get_bind]
          cases g.nodes[id]? with
          | none => rfl
          | some node => cases node <;> rfl
  | importJson j => rfl
  | compact => rfl

/-- A failed edit leaves the graph alone. -/
theorem eq_of_inPlace_error {e : Edit} {err : GraphError} (h : e.inPlace g = .error err g') :
    g' = g := by
  rw [inPlace_eq] at h
  cases hattempt : e.attempt g with
  | error err' =>
      rw [hattempt] at h
      cases h
      rfl
  | ok r =>
      rw [hattempt] at h
      cases h

theorem exists_of_map_eq_ok {α β : Type} {x : Except GraphError α} {f : α → β} {b : β}
    (h : x.map f = .ok b) : ∃ a, x = .ok a ∧ f a = b := by
  cases x with
  | error e => cases h
  | ok a => exact ⟨a, rfl, Except.ok.inj h⟩

/-- A successful edit keeps a graph well-formed, whatever it is called with. -/
theorem wellFormed_attempt (hg : g.WellFormed) {e : Edit} {answer : Answer}
    (h : e.attempt g = .ok (g', answer)) : g'.WellFormed := by
  cases e with
  | set key value =>
      rcases exists_of_map_eq_ok h with ⟨k, hset, hk⟩
      cases hk
      exact wellFormed_set hg hset
  | remove key =>
      cases h
      exact wellFormed_remove hg key
  | alloc node =>
      rcases exists_of_map_eq_ok h with ⟨r, halloc, hr⟩
      cases hr
      exact (wellFormed_alloc hg halloc).1
  | setField id key value =>
      rcases exists_of_map_eq_ok h with ⟨k, hset, hk⟩
      cases hk
      exact wellFormed_setField hg hset
  | pushItem id value =>
      rcases exists_of_map_eq_ok h with ⟨k, hpush, hk⟩
      cases hk
      exact wellFormed_pushItem hg hpush
  | importJson j =>
      cases h
      exact (wellFormed_importJson hg j).1
  | compact =>
      cases h
      exact wellFormed_compact hg

/-- So does a failed one, and what is left behind is well-formed either way. -/
theorem wellFormed_after (hg : g.WellFormed) (e : Edit) : (e.after g).WellFormed := by
  rw [after, inPlace_eq]
  cases hattempt : e.attempt g with
  | error err => exact hg
  | ok r => exact wellFormed_attempt hg hattempt

end Edit

/-! ## Every graph that can be built -/

/-- The graphs that loading and editing lead to. An edit counts whether it
succeeds or fails. -/
inductive Built : Graph → Prop where
  | empty : Built .empty
  | decoded {p : Persisted} {g : Graph} (h : decode p = .ok g) : Built g
  | edited {g : Graph} (hg : Built g) (e : Edit) : Built (e.after g)

theorem Built.wellFormed (h : g.Built) : g.WellFormed := by
  induction h with
  | empty => exact wellFormed_empty
  | decoded h => exact (decode_eq_ok_iff.1 h).2
  | edited _ e ih => exact e.wellFormed_after ih

/-- Decoding succeeds exactly when no reference leads outside. -/
theorem decode_isOk_iff {p : Persisted} : (∃ g, decode p = .ok g) ↔ p.toGraph.WellFormed := by
  constructor
  · rintro ⟨g, h⟩
    exact (decode_eq_ok_iff_toGraph.1 h).2
  · intro h
    exact ⟨p.toGraph, decode_eq_ok_iff_toGraph.2 ⟨rfl, h⟩⟩

end Graph

/-- Whatever stands at the place of a scope's file, the graph loaded from it is
one of those that can be built. -/
theorem Storage.built_loadScope (s : Storage) (scope : Scope) : (s.loadScope scope).Built := by
  unfold Storage.loadScope Storage.scope?
  cases s.decode? (.scope scope) Persisted.read? with
  | none => exact .empty
  | some p =>
      simp only [Option.bind_eq_bind, Option.bind_some]
      cases h : Graph.decode p with
      | error e => exact .empty
      | ok g => exact .decoded h

namespace Graph

/-- Reference safety. Decoding accepts exactly the written forms that refer to
nothing outside, whatever is loaded can be built, and a graph that can be built
refers to nothing outside, is left alone by an edit that fails, and is walked
without a look-up that fails. -/
theorem built_safe :
    (∀ p : Persisted, (∃ g, decode p = .ok g) ↔ p.toGraph.WellFormed) ∧
    (∀ (s : Storage) (scope : Scope), (s.loadScope scope).Built) ∧
    ∀ g : Graph, g.Built →
      g.WellFormed ∧
      (∀ (e : Edit) (err : GraphError) (g' : Graph), e.inPlace g = .error err g' → g' = g) ∧
      Unguarded.encode? g = some g.encode := by
  refine ⟨fun p => decode_isOk_iff, Storage.built_loadScope, ?_⟩
  intro g hg
  have hwf := hg.wellFormed
  exact ⟨hwf, fun e err g' h => e.eq_of_inPlace_error h, Unguarded.encode?_eq_some hwf⟩

/-- The circle with a root that holds its garbage node, and with a write of a
reference from another graph refused. -/
def ring.edited : Graph :=
  (Edit.pushItem 2 (.ref 7)).after ((Edit.set "e" (.ref 0)).after ring)

theorem built_safe_ring_edited :
    ring.edited.Built ∧ ring.edited.WellFormed ∧
      (∀ (e : Edit) (err : GraphError) (g' : Graph),
        e.inPlace ring.edited = .error err g' → g' = ring.edited) ∧
      Unguarded.encode? ring.edited = some ring.edited.encode := by
  have hring : ring.Built := .decoded (p := ⟨ring.roots, ring.nodes.toList⟩) (by decide)
  have hbuilt : ring.edited.Built := (hring.edited _).edited _
  exact ⟨hbuilt, built_safe.2.2 ring.edited hbuilt⟩

end Graph

end ActionChain
