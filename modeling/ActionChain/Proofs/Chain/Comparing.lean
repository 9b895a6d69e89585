import ActionChain.Proofs.Chain.Refinement
import ActionChain.Proofs.Variables.Equality

/-!
# What a Comparison Decides

A comparison goes on exactly if the variable is shown like the expected tree.

That is equality for proper values. It is not for a value that leads into a circle
or to a number that is not finite: such a value equals no tree, and yet there is a
tree with which the chain goes on, with a mark in the place of the circle or the
number. A sum that overflowed compares as null, and a list that holds itself as the
list of the text `[Circular]`.

## Theorems

* `Shipped.Comparison.holds_iff`: the comparison by what is shown.
* `Shipped.ifVar_decides`: where the chain goes on, and on which values that is
  equality.
-/

namespace ActionChain.Shipped

variable {β : Type}

namespace Comparison

/-- The compared value is inside its graph, also if the variable is missing. -/
theorem inside_actual {g : Graph} (hg : g.WellFormed) (key : String) :
    ((g.get? key).getD .null).Inside g.nodes.size := by
  cases hget : g.get? key with
  | none => trivial
  | some v => exact Graph.inside_of_get? hg hget

/-- A comparison holds if the variable is shown like the expected tree. -/
theorem holds_iff {p : Comparison} (hordered : p.equals.Ordered) {vars : Variables}
    (hg : (vars.scope p.scope).WellFormed) :
    p.holds vars = true ↔
      (vars.scope p.scope).Shows p.equals []
        (((vars.scope p.scope).get? p.key).getD .null) := by
  unfold holds
  simp only [Graph.toJson_importJson Graph.empty hordered]
  exact Graph.agrees_walk_iff hg.nodes (inside_actual hg p.key) (.start _) p.equals

end Comparison

/-- A comparison looks and leaves the bot as it is. -/
theorem alone_ifVar {step : Step} {p : Comparison} (hp : step.params Comparison.read? = .ok p)
    (bot : Bot β) :
    (handle .ifVar step).alone bot =
      ⟨step.reply (.ok (p.continuation (p.holds bot.vars))), bot, 0⟩ := by
  simp only [handle, hp, Routine.alone_bind, Routine.alone_read, Routine.alone_pure]

/-- What a comparison decides. The chain goes on with the next action exactly if the
variable, null if it is missing, is shown like the expected tree; otherwise it goes on
elsewhere, or stops. On a value that leads into no circle and to no infinite number,
being shown like a tree is being equal to it. Any other value equals no tree, but is
shown like one. -/
theorem ifVar_decides (bot : Bot β) (step : Step) {p : Comparison}
    (hp : step.params Comparison.read? = .ok p) (hg : (bot.vars.scope p.scope).WellFormed) :
    let g := bot.vars.scope p.scope
    let v := (g.get? p.key).getD .null
    (g.Shows p.equals [] v →
      (handle .ifVar step).alone bot = ⟨step.reply (.ok .next), bot, 0⟩) ∧
    (¬ g.Shows p.equals [] v →
      (handle .ifVar step).alone bot =
        ⟨step.reply (.ok (p.otherwise.elim .stop .goto)), bot, 0⟩) ∧
    (g.Proper v → ∀ w, g.Shows w [] v ↔ g.Is w v) ∧
    (¬ g.Proper v → (∀ w, ¬ g.Is w v) ∧ ∃ w, w.Ordered ∧ g.Shows w [] v) := by
  intro g v
  have hholds := Comparison.holds_iff (Comparison.ordered (Step.params_eq_ok hp)) hg
  refine ⟨fun hshown => ?_, fun hnot => ?_, fun hproper w => ?_, fun himproper => ⟨?_, ?_⟩⟩
  · rw [alone_ifVar hp, hholds.2 hshown]
    rfl
  · rw [alone_ifVar hp, Bool.eq_false_iff.2 fun h => hnot (hholds.1 h)]
    cases hother : p.otherwise <;> simp [Comparison.continuation, hother]
  · exact hproper.shows_iff_is nofun
  · exact fun w hw => himproper hw.proper
  · exact ⟨g.toJson v, Graph.ordered_walk _ _ _ _,
      Graph.shows_toJson hg (Comparison.inside_actual hg p.key)⟩

/-- Adds the greatest number to a variable of the server. -/
def flood : Increment := ⟨.server, "i", .finite ⟨false, Binary64.ranks - 1, by decide⟩⟩

/-- A bot whose server keeps a list that holds itself, and a sum that overflowed. -/
def flooded : Bot Shipped :=
  let knot : Graph := ⟨#[.list [.ref 0]], Dict.empty.insert "loop" (.ref 0)⟩
  let bot := { Bot.load ⟨.standard, .null, [], []⟩ .empty (fun _ _ _ => none) id with
    vars := ⟨knot, .empty⟩ }
  (flood.apply (flood.apply bot).1).1

/-- Compares a variable of the server, and stops if it differs. -/
def comparing (key : String) (equals : Json) : Step :=
  ⟨.guild ⟨1, "home"⟩, ⟨some "if-var",
    [("equals", equals), ("key", .string key), ("scope", .string "server")]⟩, [], ⟨"brink", []⟩, 0⟩

/-- The sum is no null and the list does not hold the text, but the chain goes on. -/
theorem ifVar_decides_flooded :
    (handle .ifVar (comparing "i" .null)).alone flooded =
      ⟨(comparing "i" .null).reply (.ok .next), flooded, 0⟩ ∧
    ¬ flooded.vars.server.Is .null (.number (.infinite false)) ∧
    (handle .ifVar (comparing "loop" (.array [.string "[Circular]"]))).alone flooded =
      ⟨(comparing "loop" (.array [.string "[Circular]"])).reply (.ok .next), flooded, 0⟩ ∧
    ¬ flooded.vars.server.Is (.array [.string "[Circular]"]) (.ref 0) := by
  have hg : flooded.vars.server.WellFormed := ⟨by decide +kernel, by decide +kernel⟩
  have hnode : flooded.vars.server.nodes[0]? = some (.list [.ref 0]) := by decide +kernel
  have hsum : (flooded.vars.server.get? "i").getD .null = .number (.infinite false) := by
    decide +kernel
  have hloop : (flooded.vars.server.get? "loop").getD .null = .ref 0 := by decide +kernel
  have hi := ifVar_decides flooded (comparing "i" .null) (p := ⟨.server, "i", .null, none⟩) rfl hg
  have hcircle := ifVar_decides flooded (comparing "loop" (.array [.string "[Circular]"]))
    (p := ⟨.server, "loop", .array [.string "[Circular]"], none⟩) rfl hg
  simp only [Variables.scope, hsum] at hi
  simp only [Variables.scope, hloop] at hcircle
  refine ⟨hi.1 ?_, (hi.2.2.2 fun h => ?_).1 _, hcircle.1 ?_, (hcircle.2.2.2 fun h => ?_).1 _⟩
  · intro f hf
    cases hf
  · rcases h.finite _ .refl with ⟨f, hf⟩
    cases hf
  · exact ⟨List.not_mem_nil, _, hnode, ⟨List.mem_singleton_self 0, rfl⟩, trivial⟩
  · exact h.acyclic (.ref 0) .refl (.single (.of_mem hnode (List.mem_singleton_self _)))

end ActionChain.Shipped
