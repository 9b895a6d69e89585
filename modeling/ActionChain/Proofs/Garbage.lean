import ActionChain.Proofs.Dispatch.Reached
import ActionChain.Proofs.Variables.BreadthFirst
import Mathlib.Data.Set.Card

/-!
# Collecting Garbage

What compaction drops and what it keeps.

A graph is written less its garbage, each node once, so its written form is
shorter than its arena by exactly the number of nodes that no root reaches.
Compaction compares the two lengths. If they are equal there is nothing to
drop, and the graph is left as it is, positions included; otherwise the
written form takes its place. Either way what is left can be reached
throughout, so a second compaction finds the lengths equal.

That nothing else is lost follows from the written form: it is the old graph
under the numbers of the reachable nodes, and a value is shown by what lies
below it.

A bot compacts whenever it has written its variables. How often a variable
was replaced before makes no difference to what is left afterwards.

## Main definitions

* `Graph.garbage`: the nodes that no root reaches.

## Theorems

* `Graph.ncard_garbage`: the garbage is what the written form lacks.
* `Graph.compact_of_reaches`: without garbage a graph is left alone.
* `Graph.exists_renames_compact`: a graph matches what compaction leaves.
* `Graph.compact_collects`: compaction drops the garbage and nothing else.
-/

namespace ActionChain

namespace Graph

/-- The nodes that no root reaches. -/
def garbage (g : Graph) : Set Nat := {id | id < g.nodeCount ∧ ¬ g.Reaches id}

variable {g : Graph}

theorem length_encode_le (g : Graph) : g.encode.nodes.length ≤ g.nodes.size := by
  rw [length_nodes_encode]
  exact (valid_numbering g).order_size_le

/-- The garbage is what the written form lacks. -/
theorem ncard_garbage (hg : g.WellFormed) :
    g.garbage.ncard = g.nodeCount - g.encode.nodes.length := by
  have hgarbage : g.garbage
      = ↑(Finset.range g.nodeCount \ g.numbering.order.toList.toFinset) := by
    ext id
    simp [garbage, ← mem_order_numbering hg]
  have hsub : g.numbering.order.toList.toFinset ⊆ Finset.range g.nodeCount := by
    intro id hid
    rw [List.mem_toFinset, ← Array.mem_def] at hid
    exact Finset.mem_range.2 ((valid_numbering g).lt hid)
  rw [hgarbage, Set.ncard_coe_finset, Finset.card_sdiff_of_subset hsub, Finset.card_range,
    List.toFinset_card_of_nodup (valid_numbering g).nodup, Array.length_toList,
    length_nodes_encode]

/-- The written form is as long as the arena exactly if there is no garbage. -/
theorem length_encode_eq_iff (hg : g.WellFormed) :
    g.encode.nodes.length = g.nodes.size ↔ ∀ id < g.nodeCount, g.Reaches id := by
  have hle := length_encode_le g
  have hcount := ncard_garbage hg
  have hfinite : g.garbage.Finite := (Set.finite_lt_nat g.nodeCount).subset fun _ h => h.1
  constructor
  · intro hlength id hid
    rw [nodeCount, hlength, Nat.sub_self, Set.ncard_eq_zero hfinite] at hcount
    by_contra hlost
    exact (Set.eq_empty_iff_forall_notMem.1 hcount id) ⟨hid, hlost⟩
  · intro hall
    have hempty : g.garbage = ∅ :=
      Set.eq_empty_iff_forall_notMem.2 fun id hid => hid.2 (hall id hid.1)
    rw [hempty, Set.ncard_empty, nodeCount] at hcount
    omega

/-- Without garbage a graph is left alone. -/
theorem compact_of_reaches (hg : g.WellFormed) (hall : ∀ id < g.nodeCount, g.Reaches id) :
    g.compact = (g, 0) := by
  rw [compact, if_pos ((length_encode_eq_iff hg).2 hall)]

/-- With garbage the written form takes its place. -/
theorem compact_of_garbage (hg : g.WellFormed) (hlost : ¬ ∀ id < g.nodeCount, g.Reaches id) :
    g.compact = (g.encode.toGraph, g.nodeCount - g.encode.nodes.length) := by
  rw [compact, if_neg fun hlength => hlost ((length_encode_eq_iff hg).1 hlength)]
  rfl

/-- A graph is its own renaming. -/
theorem renames_id (g : Graph) : g.Renames id g := by
  have hid : Value.rename id = id := by
    funext v
    cases v <;> rfl
  refine ⟨Set.bijOn_id _, ?_, fun a _ => ?_⟩
  · rw [hid]
    exact (Dict.map_eq_self_iff.2 fun _ _ => rfl).symm
  · have hmap : Node.map (id : Value → Value) = id := by
      funext node
      exact Node.map_eq_self_iff.2 fun _ _ => rfl
    rw [hid, hmap, Option.map_id]
    rfl

/-- What is left is the graph under a renaming of what its roots reach. -/
theorem exists_renames_compact (hg : g.WellFormed) : ∃ f, g.Renames f g.compact.1 := by
  by_cases hall : ∀ id < g.nodeCount, g.Reaches id
  · rw [compact_of_reaches hg hall]
    exact ⟨id, renames_id g⟩
  · rw [compact_of_garbage hg hall]
    exact ⟨g.number, renames_encode hg⟩

/-- What is left of a graph can be reached throughout. -/
theorem reaches_compact_iff (hg : g.WellFormed) {id : Nat} :
    g.compact.1.Reaches id ↔ id < g.compact.1.nodeCount := by
  by_cases hall : ∀ id < g.nodeCount, g.Reaches id
  · rw [compact_of_reaches hg hall]
    exact ⟨fun hid => hid.lt hg, hall id⟩
  · rw [compact_of_garbage hg hall, nodeCount, Persisted.toGraph, List.size_toArray]
    exact reaches_toGraph_encode_iff hg

/-- A root is shown the same by a graph that is the same up to renaming. -/
theorem Renames.shown_eq {h : Graph} {f : Nat → Nat} (hg : g.WellFormed) (hf : g.Renames f h)
    (key : String) :
    (h.get? key).map h.toJson = (g.get? key).map g.toJson ∧
      (h.get? key).map h.display = (g.get? key).map g.display := by
  have hgh := hf.matches hg
  have hroot := hgh.get? key
  exact ⟨(map_eq_of_rel hroot fun _ _ hvw => toJson_eq_of_matches hgh hvw).symm,
    (map_eq_of_rel hroot fun _ _ hvw => display_eq_of_matches hgh hvw).symm⟩

theorem Renames.keys_eq {h : Graph} {f : Nat → Nat} (hf : g.Renames f h) : h.keys = g.keys := by
  rw [keys, keys, hf.roots, Dict.keys_map]

/-- How many nodes are dropped: the garbage. -/
theorem dropped_compact (hg : g.WellFormed) : g.compact.2 = g.garbage.ncard := by
  rw [ncard_garbage hg]
  by_cases hall : ∀ id < g.nodeCount, g.Reaches id
  · rw [compact_of_reaches hg hall, (length_encode_eq_iff hg).2 hall, nodeCount, Nat.sub_self]
  · rw [compact_of_garbage hg hall]

end Graph

/-- Whatever happened before, persisting leaves a bot without garbage. -/
theorem Bot.reaches_persist_iff {β : Type} {bot : Bot β} (hvars : bot.vars.WellFormed) (s : Scope)
    {id : Nat} :
    (bot.persist.vars.scope s).Reaches id ↔ id < (bot.persist.vars.scope s).nodeCount := by
  have hscope : (bot.vars.scope s).WellFormed := by
    cases s with
    | server => exact hvars.1
    | global => exact hvars.2
  rw [Bot.persist, Variables.scope_compact]
  exact Graph.reaches_compact_iff hscope

/-- Compaction drops the garbage and nothing else. It returns how many nodes no
root reaches, and leaves the graph under a renaming of the others, with the
same keys, written and shown the same; a graph without garbage is left alone,
so compacting again does nothing. A bot that persisted holds no garbage. -/
theorem Graph.compact_collects {g : Graph} (hg : g.WellFormed) :
    g.compact.2 = g.garbage.ncard ∧
    (∃ f, g.Renames f g.compact.1) ∧
    (∀ id, g.compact.1.Reaches id ↔ id < g.compact.1.nodeCount) ∧
    g.compact.1.keys = g.keys ∧
    g.compact.1.encode = g.encode ∧
    (∀ key, (g.compact.1.get? key).map g.compact.1.toJson = (g.get? key).map g.toJson ∧
      (g.compact.1.get? key).map g.compact.1.display = (g.get? key).map g.display) ∧
    ((∀ id < g.nodeCount, g.Reaches id) → g.compact.1 = g) ∧
    g.compact.1.compact = (g.compact.1, 0) ∧
    ∀ (β : Type) (bot : Bot β), bot.vars.WellFormed → ∀ s id,
      (bot.persist.vars.scope s).Reaches id ↔ id < (bot.persist.vars.scope s).nodeCount := by
  rcases exists_renames_compact hg with ⟨f, hf⟩
  have hleft : ∀ id, g.compact.1.Reaches id ↔ id < g.compact.1.nodeCount :=
    fun _ => reaches_compact_iff hg
  refine ⟨dropped_compact hg, ⟨f, hf⟩, hleft, hf.keys_eq, encode_compact hg, hf.shown_eq hg, ?_, ?_,
    fun β bot hvars s id => Bot.reaches_persist_iff hvars s⟩
  · intro hall
    rw [compact_of_reaches hg hall]
  · exact compact_of_reaches (wellFormed_compact hg) fun id => (hleft id).2

/-- Binds a variable of the server to a list, twice. -/
def hoardChain : Chain :=
  ⟨EventName.userJoinsServer, List.replicate 2
    ⟨none, [("set", .object [("key", .string "k"), ("scope", .string "server"),
      ("value", .array [.string "x", .array []])])]⟩⟩

/-- A bot without files that greeted its first member by binding the list. -/
def hoarder : Bot Shipped :=
  ((Bot.pending (Dispatch.event (.memberJoined ⟨1, ⟨2, "ann", false⟩⟩))).alone
    (Bot.start ⟨.standard, .null, [], [hoardChain]⟩ .empty (fun _ _ _ => none) id)).state

/-- The ring sheds the one node that no root reaches, and the bot the two nodes
of the list it replaced. -/
theorem Graph.compact_collects_ring :
    ring.WellFormed ∧ Bot.Reached hoarder [] ∧
    ring.garbage.ncard = 1 ∧
    ring.compact.1 ≠ ring ∧
    (∃ f, ring.Renames f ring.compact.1) ∧
    ring.compact.1.compact = (ring.compact.1, 0) ∧
    (hoarder.vars.scope .server).nodeCount = 4 ∧
    (hoarder.persist.vars.scope .server).nodeCount = 2 ∧
    ∀ s id, (hoarder.persist.vars.scope s).Reaches id ↔
      id < (hoarder.persist.vars.scope s).nodeCount := by
  have hring : ring.WellFormed := ⟨by decide, by decide⟩
  have hbot : Bot.Reached hoarder [] :=
    ((Bot.Reached.start ⟨.standard, .null, [], [hoardChain]⟩ .empty (fun _ _ _ => none) id).event
      (.memberJoined ⟨1, ⟨2, "ann", false⟩⟩)).finish
  rcases compact_collects hring with ⟨hdropped, hrenames, -, -, -, -, -, hagain, hpersist⟩
  refine ⟨hring, hbot, hdropped.symm, by decide, hrenames, hagain, by decide +kernel,
    by decide +kernel, hpersist Shipped hoarder hbot.wellFormed⟩

end ActionChain
