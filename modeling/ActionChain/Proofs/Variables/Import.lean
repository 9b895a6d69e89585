import ActionChain.Proofs.Variables.Matching
import ActionChain.Variables.Tree

/-!
# Importing Trees

What copying a JSON tree into an arena keeps.

Importing does not check its references, because it only stores ones it has
just made. That this is safe is an invariant of its own: the arena is closed
before and after, and it never shrinks, so a reference made for one part of
the tree is still inside when the parent that holds it is added.

Importing one tree into two matching arenas gives matching arenas. The nodes
of the tree are added in the same order on both sides, so each fresh node is
the partner of the other side's fresh node, and the partners from before stay
partners.

## Main definitions

* `Arena.Closed`: no node of an arena refers outside.

## Theorems

* `Arena.closed_importJson`: importing keeps an arena closed.
* `Arena.matches_importJson`: importing keeps arenas matching.
* `Graph.wellFormed_importJson`, `Graph.matches_importJson`: the same for
  graphs.
-/

namespace ActionChain

namespace Arena

/-- No node refers outside the arena. -/
def Closed (nodes : Array Node) : Prop := ∀ n ∈ nodes, ∀ v ∈ n.children, v.Inside nodes.size

/-- Adding a node whose references lie inside keeps an arena closed. -/
theorem Closed.push {nodes : Array Node} (h : Closed nodes) {node : Node}
    (hnode : ∀ v ∈ node.children, v.Inside nodes.size) : Closed (nodes.push node) := by
  intro n hn v hv
  rw [Array.size_push]
  rcases Array.mem_push.1 hn with hn | hn
  · exact (h n hn v hv).mono (Nat.le_succ _)
  · subst hn
    exact (hnode v hv).mono (Nat.le_succ _)

/-- The values of a dictionary made from a list are among those listed. -/
theorem mem_values_ofList {es : List (String × Value)} {v : Value}
    (h : v ∈ (Dict.ofList es).values) : v ∈ es.map Prod.snd := by
  rcases List.mem_map.1 h with ⟨e, he, rfl⟩
  exact List.mem_map_of_mem (Entries.mem_of_mem_ofList he)

mutual

/-- Importing keeps an arena closed, adds to it only, and answers with a value
that lies inside. -/
theorem closed_importJson : ∀ (j : Json) (nodes : Array Node), Closed nodes →
    Closed (importJson nodes j).1 ∧ nodes.size ≤ (importJson nodes j).1.size ∧
      (importJson nodes j).2.Inside (importJson nodes j).1.size
  | .null, nodes, h => ⟨h, Nat.le_refl _, trivial⟩
  | .bool _, nodes, h => ⟨h, Nat.le_refl _, trivial⟩
  | .number _, nodes, h => ⟨h, Nat.le_refl _, trivial⟩
  | .string _, nodes, h => ⟨h, Nat.le_refl _, trivial⟩
  | .array items, nodes, h => by
      rcases closed_importItems items nodes h with ⟨hclosed, hsize, hin⟩
      simp only [importJson]
      -- The list comes behind its items, so everything it holds is there already.
      refine ⟨hclosed.push hin, ?_, ?_⟩
      · rw [Array.size_push]
        omega
      · rw [Array.size_push]
        exact Nat.lt_succ_self _
  | .object members, nodes, h => by
      rcases closed_importMembers members nodes h with ⟨hclosed, hsize, hin⟩
      simp only [importJson]
      refine ⟨hclosed.push fun v hv => hin v (mem_values_ofList hv), ?_, ?_⟩
      · rw [Array.size_push]
        omega
      · rw [Array.size_push]
        exact Nat.lt_succ_self _

theorem closed_importItems : ∀ (items : List Json) (nodes : Array Node), Closed nodes →
    Closed (importItems nodes items).1 ∧ nodes.size ≤ (importItems nodes items).1.size ∧
      ∀ v ∈ (importItems nodes items).2, v.Inside (importItems nodes items).1.size
  | [], nodes, h => ⟨h, Nat.le_refl _, fun v hv => absurd hv List.not_mem_nil⟩
  | item :: rest, nodes, h => by
      rcases closed_importJson item nodes h with ⟨hitem, hsize, hin⟩
      rcases closed_importItems rest _ hitem with ⟨hrest, hsize', hin'⟩
      simp only [importItems]
      refine ⟨hrest, Nat.le_trans hsize hsize', ?_⟩
      intro v hv
      rcases List.mem_cons.1 hv with hv | hv
      · subst hv
        exact hin.mono hsize'
      · exact hin' v hv

theorem closed_importMembers : ∀ (members : List (String × Json)) (nodes : Array Node),
    Closed nodes →
    Closed (importMembers nodes members).1 ∧ nodes.size ≤ (importMembers nodes members).1.size ∧
      ∀ v ∈ (importMembers nodes members).2.map Prod.snd,
        v.Inside (importMembers nodes members).1.size
  | [], nodes, h => ⟨h, Nat.le_refl _, fun v hv => absurd hv List.not_mem_nil⟩
  | (key, json) :: rest, nodes, h => by
      rcases closed_importJson json nodes h with ⟨hitem, hsize, hin⟩
      rcases closed_importMembers rest _ hitem with ⟨hrest, hsize', hin'⟩
      simp only [importMembers]
      refine ⟨hrest, Nat.le_trans hsize hsize', ?_⟩
      intro v hv
      rw [List.map_cons] at hv
      rcases List.mem_cons.1 hv with hv | hv
      · subst hv
        exact hin.mono hsize'
      · exact hin' v hv

end

/-! ## Two arenas at once -/

mutual

/-- Importing a tree into two matching arenas gives matching arenas and
matching values, and dissolves no partnership. -/
theorem matches_importJson : ∀ (j : Json) {ρ : Nat → Nat → Prop} {ns ms : Array Node},
    Arena.Matches ρ ns ms → ∃ σ : Nat → Nat → Prop, (∀ a b, ρ a b → σ a b) ∧
      Arena.Matches σ (importJson ns j).1 (importJson ms j).1 ∧
      (importJson ns j).2.Matches σ (importJson ms j).2
  | .null, ρ, _, _, h => ⟨ρ, fun _ _ hab => hab, h, .null⟩
  | .bool b, ρ, _, _, h => ⟨ρ, fun _ _ hab => hab, h, .bool b⟩
  | .number n, ρ, _, _, h => ⟨ρ, fun _ _ hab => hab, h, .number _⟩
  | .string s, ρ, _, _, h => ⟨ρ, fun _ _ hab => hab, h, .text s⟩
  | .array items, ρ, ns, ms, h => by
      rcases matches_importItems items h with ⟨σ, hρσ, harena, hvalues⟩
      simp only [importJson]
      -- The two new lists become partners on top of what their items added.
      refine ⟨_, fun a b hab => .inl (hρσ a b hab), harena.push (.list hvalues), ?_⟩
      exact .ref (.inr ⟨rfl, rfl⟩)
  | .object members, ρ, ns, ms, h => by
      rcases matches_importMembers members h with ⟨σ, hρσ, harena, hfields⟩
      simp only [importJson]
      refine ⟨_, fun a b hab => .inl (hρσ a b hab), harena.push (.object hfields.ofList), ?_⟩
      exact .ref (.inr ⟨rfl, rfl⟩)

theorem matches_importItems : ∀ (items : List Json) {ρ : Nat → Nat → Prop} {ns ms : Array Node},
    Arena.Matches ρ ns ms → ∃ σ : Nat → Nat → Prop, (∀ a b, ρ a b → σ a b) ∧
      Arena.Matches σ (importItems ns items).1 (importItems ms items).1 ∧
      List.Forall₂ (Value.Matches σ) (importItems ns items).2 (importItems ms items).2
  | [], ρ, _, _, h => ⟨ρ, fun _ _ hab => hab, h, .nil⟩
  | item :: rest, ρ, ns, ms, h => by
      rcases matches_importJson item h with ⟨σ, hρσ, harena, hvalue⟩
      rcases matches_importItems rest harena with ⟨τ, hστ, harena', hvalues⟩
      simp only [importItems]
      exact ⟨τ, fun a b hab => hστ a b (hρσ a b hab), harena', .cons (hvalue.mono hστ) hvalues⟩

theorem matches_importMembers : ∀ (members : List (String × Json)) {ρ : Nat → Nat → Prop}
    {ns ms : Array Node},
    Arena.Matches ρ ns ms → ∃ σ : Nat → Nat → Prop, (∀ a b, ρ a b → σ a b) ∧
      Arena.Matches σ (importMembers ns members).1 (importMembers ms members).1 ∧
      Entries.Matches (Value.Matches σ) (importMembers ns members).2
        (importMembers ms members).2
  | [], ρ, _, _, h => ⟨ρ, fun _ _ hab => hab, h, .nil⟩
  | (key, json) :: rest, ρ, ns, ms, h => by
      rcases matches_importJson json h with ⟨σ, hρσ, harena, hvalue⟩
      rcases matches_importMembers rest harena with ⟨τ, hστ, harena', hfields⟩
      simp only [importMembers]
      exact ⟨τ, fun a b hab => hστ a b (hρσ a b hab), harena',
        .cons ⟨rfl, hvalue.mono hστ⟩ hfields⟩

end

end Arena

namespace Graph

variable {g h : Graph}

/-- Importing keeps a graph well-formed and answers with a value that lies
inside. -/
theorem wellFormed_importJson (hg : g.WellFormed) (j : Json) :
    (g.importJson j).1.WellFormed ∧ (g.importJson j).2.Inside (g.importJson j).1.nodes.size := by
  rcases Arena.closed_importJson j g.nodes hg.nodes with ⟨hclosed, hsize, hin⟩
  exact ⟨⟨fun v hv => (hg.roots v hv).mono hsize, hclosed⟩, hin⟩

/-- Importing a tree into two matching graphs gives matching graphs and
matching values. -/
theorem matches_importJson {ρ : Nat → Nat → Prop} (hgh : g.Matches ρ h) (j : Json) :
    ∃ σ, (g.importJson j).1.Matches σ (h.importJson j).1 ∧
      (g.importJson j).2.Matches σ (h.importJson j).2 := by
  rcases Arena.matches_importJson j hgh.arena with ⟨σ, hρσ, harena, hvalue⟩
  exact ⟨σ, ⟨harena, hgh.roots.mono fun _ _ hv => hv.mono hρσ⟩, hvalue⟩

end Graph

end ActionChain
