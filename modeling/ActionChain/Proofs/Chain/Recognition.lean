import ActionChain.Proofs.Chain.Comparing
import ActionChain.Proofs.Chain.Writes
import ActionChain.Proofs.Json.Sameness
import ActionChain.Proofs.Restart
import ActionChain.Proofs.Template.OnePass
import ActionChain.Proofs.Variables.Safety

/-!
# What Was Stored Is Recognized

A comparison recognizes what the built-in action stored under the same key.

On the way from one to the other a tree is read from the parameters, copied into an
arena and followed back, and the expected tree goes the same way through an arena of its
own. Reading brings the members of an object into order and storing turns numbers into
floating-point numbers, on both sides alike, so what is left is whether the two trees say
the same (`Json.Same`). A text is the exception on the one side only: it is a template
before it is stored, but not before it is compared.

Between the two, the scope may be kept up: compacted, or written to its file and loaded
from there, in any order and number (`Graph.KeptUp`). None of it shows in what a scope is
written as, as long as there is nothing in it that its file cannot hold. Compaction moves
nodes about and a file spells numbers, so of these the numbers are to be looked after:
they must be finite, and the characters of a number must stand for it.

## Main definitions

* `Builtin.setting`, `Shipped.comparison`: the parameters of the two actions.
* `Arena.Finite`, `Graph.Finite`: all numbers that are held are finite.
* `Graph.KeptUp`: what becomes of a scope when nobody writes to it.

## Theorems

* `Template.render_of_not_mem`: a text without a dollar sign is rendered as it is.
* `Arena.Finite.importJson`: trees bring finite numbers only.
* `Graph.KeptUp.alike`: upkeep does not show in what is written.
* `Bot.recognizes_setting`: which trees are recognized after a tree was stored.
-/

namespace ActionChain

variable {β : Type}

/-- A text without a dollar sign is rendered as it is. -/
theorem Template.render_of_not_mem {text : String} (h : '$' ∉ text.toList) (subject : Subject)
    (args : List String) (vars : Variables) : render text subject args vars = text := by
  have hpieces := split_append_of_not_mem h []
  rw [List.append_nil, split, List.append_nil] at hpieces
  rw [render, hpieces, flatMap_value_literals, String.ofList_toList]

/-- Loading the variables loads each scope from its file. -/
theorem Storage.scope_loadVariables (storage : Storage) (s : Scope) :
    storage.loadVariables.scope s = storage.loadScope s := by
  cases s <;> rfl

/-! ## Parameters -/

/-- The parameters that bind a key of a scope to a tree. -/
def Builtin.setting (s : Scope) (key : String) (v : Json) : List (String × Json) :=
  [("set", .object [("key", .string key), ("scope", .string s.name), ("value", v)])]

/-- The index of an action as a number of a JSON value. -/
def Shipped.target (index : UInt64) : Number :=
  .int index.toNat (Number.inRange_toNat index)

/-- The parameters that compare a key of a scope with a tree, and those that tell where to
go if they differ. -/
def Shipped.comparison (s : Scope) (key : String) (w : Json) (otherwise : Option UInt64) :
    List (String × Json) :=
  (otherwise.map fun index => ("else", .number (target index))).toList ++
    [("equals", w), ("key", .string key), ("scope", .string s.name)]

theorem Scope.read?_name (s : Scope) : Scope.read? (.string s.name) = some s := by
  cases s <;> rfl

theorem Builtin.params_setting {step : Step} {s : Scope} {key : String} {v v' : Json}
    (hparams : step.action.params = setting s key v) (hv : (Source.ofJson v).value? = some v') :
    step.params Params.read? = .ok ⟨some ⟨s, key, v'⟩, none, none, false, none⟩ := by
  have hset : Assignment.read? (.object [(⟨some "key", false⟩, .string key),
      (⟨some "scope", false⟩, .string s.name), (⟨some "value", false⟩, Source.ofJson v)]) =
      some ⟨s, key, v'⟩ := by
    simp [Assignment.read?, Source.record?, Source.readableKeys?, Source.required, Entries.find?,
      Scope.read?_name, Source.text?, hv]
  simp [Step.params, Action.paramSource, hparams, setting, Source.ofJson, Source.ofMembers,
    Params.read?, Source.record?, Source.readableKeys?, Source.withDefault, Entries.find?,
    Source.nullable?, hset]

theorem Shipped.params_comparison {step : Step} {s : Scope} {key : String} {w w' : Json}
    {otherwise : Option UInt64} (hparams : step.action.params = comparison s key w otherwise)
    (hw : (Source.ofJson w).value? = some w') :
    step.params Comparison.read? = .ok ⟨s, key, w', otherwise.map UInt64.toNat⟩ := by
  have hindex : ∀ index, Source.natural? UInt64.size (.number (target index)) =
      some index.toNat := by
    intro index
    simp [Source.natural?, target, UInt64.toNat_lt_size]
  cases otherwise <;>
    simp [Step.params, Action.paramSource, hparams, comparison, Source.ofJson, Source.ofMembers,
      Comparison.read?, Source.record?, Source.readableKeys?, Source.required, Entries.find?,
      Source.withDefault, Scope.read?_name, Source.text?, hw, Source.nullable?, hindex]

/-! ## Finite numbers -/

namespace Arena

/-- Every number that a node holds is finite. -/
def Finite (nodes : Array Node) : Prop :=
  ∀ n ∈ nodes, ∀ x, .number x ∈ n.children → ∃ f, x = .finite f

theorem Finite.push {nodes : Array Node} (h : Finite nodes) {node : Node}
    (hnode : ∀ x, .number x ∈ node.children → ∃ f, x = .finite f) : Finite (nodes.push node) := by
  intro n hn
  rcases Array.mem_push.1 hn with hn | rfl
  · exact h n hn
  · exact hnode

mutual

/-- Trees bring finite numbers only. -/
theorem Finite.importJson : ∀ (j : Json) {nodes : Array Node}, Finite nodes →
    Finite (importJson nodes j).1 ∧
      ∀ x, .number x = (importJson nodes j).2 → ∃ f, x = .finite f
  | .null, _, h => ⟨h, nofun⟩
  | .bool _, _, h => ⟨h, nofun⟩
  | .number n, _, h => ⟨h, fun x hx => by
      cases hx
      exact n.exists_finite⟩
  | .string _, _, h => ⟨h, nofun⟩
  | .array items, _, h => by
      rcases Finite.importItems items h with ⟨hnodes, hvalues⟩
      exact ⟨hnodes.push hvalues, nofun⟩
  | .object members, _, h => by
      rcases Finite.importMembers members h with ⟨hnodes, hvalues⟩
      exact ⟨hnodes.push fun x hx => hvalues x (mem_values_ofList hx), nofun⟩

theorem Finite.importItems : ∀ (items : List Json) {nodes : Array Node}, Finite nodes →
    Finite (importItems nodes items).1 ∧
      ∀ x, .number x ∈ (importItems nodes items).2 → ∃ f, x = .finite f
  | [], _, h => ⟨h, nofun⟩
  | item :: rest, _, h => by
      rcases Finite.importJson item h with ⟨hitem, hvalue⟩
      rcases Finite.importItems rest hitem with ⟨hrest, hvalues⟩
      refine ⟨hrest, fun x hx => ?_⟩
      rcases List.mem_cons.1 hx with hx | hx
      · exact hvalue x hx
      · exact hvalues x hx

theorem Finite.importMembers : ∀ (members : List (String × Json)) {nodes : Array Node},
    Finite nodes → Finite (importMembers nodes members).1 ∧
      ∀ x, .number x ∈ (importMembers nodes members).2.map Prod.snd → ∃ f, x = .finite f
  | [], _, h => ⟨h, nofun⟩
  | (_, j) :: rest, _, h => by
      rcases Finite.importJson j h with ⟨hmember, hvalue⟩
      rcases Finite.importMembers rest hmember with ⟨hrest, hvalues⟩
      refine ⟨hrest, fun x hx => ?_⟩
      rcases List.mem_cons.1 hx with hx | hx
      · exact hvalue x hx
      · exact hvalues x hx

end

end Arena

namespace Graph

/-- Every number that a root or a node holds is finite. -/
structure Finite (g : Graph) : Prop where
  roots : ∀ x, .number x ∈ g.roots.values → ∃ f, x = .finite f
  nodes : Arena.Finite g.nodes

variable {g h : Graph}

theorem number_of_renumber {n : Numbering} {v : Value} {x : Binary64}
    (himage : n.renumber v = .number x) : v = .number x := by
  cases v with
  | ref id =>
      revert himage
      rw [Numbering.renumber]
      rcases n.numbers[id]? with _ | _ | number <;> intro himage <;> cases himage
  | _ => exact himage

/-- What is written down of finite numbers is finite. -/
theorem Finite.encode (hg : g.Finite) {x : Binary64} (hx : .number x ∈ g.encode.values) :
    ∃ f, x = .finite f := by
  rcases List.mem_append.1 hx with hx | hx
  · rw [Graph.encode, Dict.values_map] at hx
    rcases List.mem_map.1 hx with ⟨v, hv, himage⟩
    exact hg.roots x (number_of_renumber himage ▸ hv)
  · rcases List.mem_flatMap.1 hx with ⟨node, hnode, hx⟩
    rcases List.mem_filterMap.1 hnode with ⟨id, -, hid⟩
    rcases Option.map_eq_some_iff.1 hid with ⟨n, hn, rfl⟩
    rw [Node.children_map] at hx
    rcases List.mem_map.1 hx with ⟨v, hv, himage⟩
    exact hg.nodes n (Array.mem_of_getElem? hn) x (number_of_renumber himage ▸ hv)

/-! ## Upkeep -/

/-- What the graph of a scope may have become when nobody wrote to it. -/
inductive KeptUp (s : Scope) (g : Graph) : Graph → Prop where
  | same : KeptUp s g g
  | compact {h : Graph} (hkept : KeptUp s g h) : KeptUp s g h.compact.1
  /-- All scopes were written to their files, and this one was loaded from there. The
  characters of its numbers stand for them. -/
  | reload (vars : Variables) (hkept : KeptUp s g (vars.scope s)) (storage : Storage)
      (hwritten : (storage.flushVariables vars).2 = none)
      (hnumbers : ∀ x, .number (.finite x) ∈ (vars.scope s).encode.values →
        x.reread? = some (.finite x))
      (hsize : (vars.scope s).encode.nodes.length ≤ UInt64.size) :
      KeptUp s g ((storage.flushVariables vars).1.loadVariables.scope s)

/-- Upkeep does not show in what is written. -/
theorem KeptUp.alike {s : Scope} (hkept : g.KeptUp s h) (hg : g.WellFormed) (hfinite : g.Finite) :
    g.Alike h := by
  induction hkept with
  | same => exact .refl hg
  | compact _ ih => exact ih.compact_right
  | reload vars _ storage hwritten hnumbers hsize ih =>
      have hloaded := (storage.flushVariables vars).1.built_loadScope s
      rw [Storage.scope_loadVariables]
      refine ⟨hg, hloaded.wellFormed, ih.encode.trans ?_⟩
      rw [Storage.loadScope_flushVariables hwritten]
      refine ((encode_reloaded_iff_finite ih.right hnumbers hsize).2 fun x hx => ?_).symm
      exact hfinite.encode (ih.encode ▸ hx)

/-- What is shown under a key is the same in graphs that are written the same. -/
theorem Alike.shown_eq (hgh : g.Alike h) (key : String) :
    h.toJson ((h.get? key).getD .null) = g.toJson ((g.get? key).getD .null) := by
  rcases hgh.exists_matches with ⟨ρ, hmatches⟩
  have hrel := hmatches.get? key
  cases hgkey : g.get? key with
  | none =>
      rw [hgkey] at hrel
      rw [eq_none_of_rel_none hrel]
      rfl
  | some v =>
      rw [hgkey] at hrel
      rcases exists_of_rel_some hrel with ⟨w, hw, hvw⟩
      rw [hw]
      exact (toJson_eq_of_matches hmatches hvw).symm

end Graph

/-! ## Storing and comparing -/

namespace Bot

/-- Storing a tree in order leaves a graph that shows the tree under its key. -/
theorem storeJson_shows (bot : Bot β) {s : Scope} (key : String)
    (hg : (bot.vars.scope s).WellFormed) (hfinite : (bot.vars.scope s).Finite) {j : Json}
    (hj : j.Ordered) :
    ∃ g : Graph, bot.storeJson s key j = ({ bot with vars := bot.vars.update s g }, .ok ()) ∧
      g.WellFormed ∧ g.Finite ∧ g.toJson ((g.get? key).getD .null) = j.stored := by
  rcases Graph.wellFormed_importJson hg j with ⟨hgrown, hin⟩
  rcases Arena.Finite.importJson j hfinite.nodes with ⟨hnodes, hvalue⟩
  have hset := Graph.set_of_inside hin key
  refine ⟨_, by simp only [storeJson, hset], Graph.wellFormed_set hgrown hset, ⟨?_, hnodes⟩, ?_⟩
  · intro x hx
    rcases List.mem_map.1 hx with ⟨e, he, hex⟩
    rcases Entries.mem_insert he with rfl | he
    · exact hvalue x hex.symm
    · exact hfinite.roots x (List.mem_map.2 ⟨e, he, hex⟩)
  · rw [Graph.get?_set hset, if_pos rfl]
    exact Graph.toJson_importJson _ hj

end Bot

/-- A comparison holds if the stored form of the expected tree is shown. -/
theorem Shipped.Comparison.holds_eq_agrees {p : Comparison} (hordered : p.equals.Ordered)
    (vars : Variables) :
    p.holds vars =
      ((vars.scope p.scope).toJson (((vars.scope p.scope).get? p.key).getD .null)).agrees
        p.equals.stored := by
  rw [holds, ← Graph.toJson_importJson Graph.empty hordered]

/-- What is not a text with a dollar sign is stored as it is. -/
theorem Builtin.assignedJson_of_plain {j : Json} (h : ∀ text, j = .string text → '$' ∉ text.toList)
    (step : Step) (vars : Variables) : assignedJson step j vars = j := by
  cases j with
  | string text => exact congrArg Json.string (Template.render_of_not_mem (h text rfl) ..)
  | _ => rfl

/-- Setting a variable alone does what storing does, and says that the chain goes on. -/
theorem Builtin.alone_handle_of_assignment {step : Step} {a : Assignment}
    (hparams : step.params Params.read? = .ok ⟨some a, none, none, false, none⟩) {bot bot' : Bot β}
    (hstored : bot.storeJson a.scope a.key (assignedJson step a.value bot.vars) = (bot', .ok ())) :
    (handle step).alone bot = ⟨step.reply (.ok .next), bot', 0⟩ := by
  have hassign : (assign (β := β) step (some a)).alone bot = ⟨.ok (), bot', 0⟩ := by
    rw [assign, Routine.alone_atomic, hstored]
  simp only [handle, hparams]
  rw [Routine.alone_bind, hassign]
  rfl

/-- Which trees are recognized after a tree was stored.

Setting a variable to a tree succeeds, with the chain going on. From then on, and whatever
upkeep its scope sees, a comparison goes on with the next action exactly if the expected
tree says the same as the one that was set, and otherwise goes where it is told, or stops.
The tree is not a text with a dollar sign, which would be a template, and the numbers that
are in the scope are finite. -/
theorem Bot.recognizes_setting (bot : Bot β) {s : Scope} (key : String)
    (hg : (bot.vars.scope s).WellFormed) (hfinite : (bot.vars.scope s).Finite) {v w : Json}
    (hplain : ∀ text, v = .string text → '$' ∉ text.toList) {setter comparer : Step}
    {otherwise : Option UInt64} (hsetter : setter.action.params = Builtin.setting s key v)
    (hcomparer : comparer.action.params = Shipped.comparison s key w otherwise) :
    let stored := (Builtin.handle setter).alone bot
    stored = ⟨setter.reply (.ok .next), { bot with vars := stored.state.vars }, 0⟩ ∧
    ∀ later : Bot β, (stored.state.vars.scope s).KeptUp s (later.vars.scope s) →
      (v.Same w → (Shipped.handle .ifVar comparer).alone later =
        ⟨comparer.reply (.ok .next), later, 0⟩) ∧
      (¬ v.Same w → (Shipped.handle .ifVar comparer).alone later =
        ⟨comparer.reply (.ok ((otherwise.map UInt64.toNat).elim .stop .goto)), later, 0⟩) := by
  -- Both trees come in order, and say what they said.
  rcases v.exists_value?_ofJson with ⟨v', hv, hvv'⟩
  rcases w.exists_value?_ofJson with ⟨w', hw, hww'⟩
  have hvordered := Source.ordered_of_value? hv
  have hwordered := Source.ordered_of_value? hw
  have hplain' : ∀ text, v' = .string text → '$' ∉ text.toList := by
    rintro text rfl
    cases hvv' with
    | string => exact hplain text rfl
  rcases bot.storeJson_shows key hg hfinite hvordered with
    ⟨g, hstored, hwellFormed, hgfinite, hshows⟩
  have hset := Builtin.alone_handle_of_assignment (Builtin.params_setting hsetter hv)
    ((congrArg _ (Builtin.assignedJson_of_plain hplain' setter bot.vars)).trans hstored)
  intro stored
  have hscope : stored.state.vars.scope s = g := by
    simp only [stored, hset, Variables.scope_update, if_pos]
  refine ⟨by simp only [stored, hset], fun later hkept => ?_⟩
  rw [hscope] at hkept
  let p : Shipped.Comparison := ⟨s, key, w', otherwise.map UInt64.toNat⟩
  have hsame : p.holds later.vars = true ↔ v.Same w := by
    rw [Shipped.Comparison.holds_eq_agrees hwordered,
      (hkept.alike hwellFormed hgfinite).shown_eq key, hshows,
      Json.agrees_stored_iff_same hvordered hwordered]
    exact ⟨fun h => hvv'.trans (h.trans hww'.symm), fun h => hvv'.symm.trans (h.trans hww')⟩
  rw [Shipped.alone_ifVar (Shipped.params_comparison hcomparer hw)]
  refine ⟨fun h => ?_, fun h => ?_⟩
  · rw [hsame.2 h]
    rfl
  · rw [Bool.eq_false_iff.2 (mt hsame.1 h)]
    cases otherwise <;> rfl

namespace Shipped

/-- A list under one key, an object without members under another, and the keys not in
order. -/
def slip (x zero : Number) : Json :=
  .object [("seen", .array [.number x, .number zero, .string "[Circular]"]), ("by", .object [])]

/-- The slip in order. -/
def filed (x zero : Number) : Json :=
  .object [("by", .object []), ("seen", .array [.number x, .number zero, .string "[Circular]"])]

theorem same_filed (x zero : Number) : (slip x zero).Same (filed x zero) := by
  have horder : "by" < "seen" := by decide
  have hdistinct : "by" ≠ "seen" := by decide
  have hfiled : filed x zero = .object (Entries.ofList (slip x zero).members) := by
    simp only [filed, slip, Json.members, Entries.ofList, List.foldl_cons, List.foldl_nil,
      Entries.insert, if_neg hdistinct, if_pos horder]
  rw [hfiled]
  exact Json.same_object_ofList (List.forall₂_same.2 fun e _ => ⟨rfl, .refl e.2⟩)

theorem ordered_filed (x zero : Number) : (filed x zero).Ordered := by
  have horder : "by" < "seen" := by decide
  refine ⟨List.pairwise_pair.2 horder, ?_⟩
  simp only [Json.OrderedMembers, Json.Ordered, Json.OrderedItems, Entries.Ascending,
    List.Pairwise.nil, and_self]

/-- A step on a server with parameters. -/
def stepWith (params : List (String × Json)) : Step :=
  ⟨.guild ⟨1, "home"⟩, ⟨none, params⟩, [], ⟨"brink", []⟩, 0⟩

/-- The number three and the negative zero. -/
def three : Binary64.Finite := ⟨false, 1024 * Binary64.binade + Binary64.binade / 2, by decide⟩

def negativeZero : Binary64.Finite := .zero true

/-- Stores a slip with an integer and a negative zero. -/
def filing : Step :=
  stepWith (Builtin.setting .server "a" (slip (.int 3 (by decide)) (.float negativeZero)))

/-- Expects a slip with floating-point numbers. -/
def expecting (x : Binary64.Finite) : Step :=
  stepWith (comparison .server "a" (filed (.float x) (.int 0 Number.inRange_zero)) (some 7))

/-- A bot whose server keeps shared nodes and a circle. -/
def keeper : Bot Shipped :=
  { Bot.load ⟨.standard, .null, [], []⟩ .empty (fun _ _ _ => none) id with
    vars := ⟨Graph.ring, .empty⟩ }

/-- The variables after the slip was stored and they were compacted. -/
def keeper.tidied : Variables := ((Builtin.handle filing).alone keeper).state.vars.compact.1

/-- The bot after they were written and loaded. -/
def keeper.reopened : Bot Shipped :=
  { keeper with vars := (Storage.empty.flushVariables keeper.tidied).1.loadVariables }

/-- The numbers of the slip are read back. -/
theorem numbers_tidied {x : Binary64} (hx : .number x ∈ keeper.tidied.server.encode.values) :
    x = .finite three ∨ x = .finite negativeZero := by
  have hvalues : keeper.tidied.server.encode.values = [.ref 0, .ref 1, .ref 1, .text "x", .ref 2,
      .ref 3, .ref 1, .ref 4, .number (.finite three), .number (.finite negativeZero),
      .text "[Circular]", .ref 1, .bool true, .ref 1] := by decide +kernel
  rw [hvalues] at hx
  simpa using hx

theorem keptUp_reopened :
    (((Builtin.handle filing).alone keeper).state.vars.scope .server).KeptUp .server
      (keeper.reopened.vars.scope .server) := by
  have hcompacted : (((Builtin.handle filing).alone keeper).state.vars.scope .server).KeptUp .server
      (keeper.tidied.scope .server) := by
    rw [keeper.tidied, Variables.scope_compact]
    exact .compact .same
  have hwritten : (Storage.empty.flushVariables keeper.tidied).2 = none := by decide +kernel
  have hsize : (keeper.tidied.scope .server).encode.nodes.length ≤ UInt64.size := by decide +kernel
  have hnumbers : ∀ x, .number (.finite x) ∈ (keeper.tidied.scope .server).encode.values →
      x.reread? = some (.finite x) := by
    intro x hx
    rcases numbers_tidied hx with hx | hx
    · cases hx
      decide +kernel
    · cases hx
      decide +kernel
  exact .reload keeper.tidied hcompacted .empty hwritten hnumbers hsize

/-- After compaction and a reload the slip is recognized, with its numbers spelled in
another way and its keys in another order. With another number it is not. -/
theorem recognizes_setting_keeper :
    (handle .ifVar (expecting three)).alone keeper.reopened =
      ⟨(expecting three).reply (.ok .next), keeper.reopened, 0⟩ ∧
    (handle .ifVar (expecting negativeZero)).alone keeper.reopened =
      ⟨(expecting negativeZero).reply (.ok (.goto 7)), keeper.reopened, 0⟩ := by
  have hg : (keeper.vars.scope .server).WellFormed := ⟨by decide +kernel, by decide +kernel⟩
  have hroots : keeper.vars.server.roots.values = [.ref 2, .ref 1, .ref 1, .text "x"] := by
    decide +kernel
  have hfinite : (keeper.vars.scope .server).Finite := by
    refine ⟨fun x hx => ?_, fun n hn x hx => ?_⟩
    · rw [Variables.scope, hroots] at hx
      simp at hx
    · have hn : n = .list [.text "lost", .ref 2] ∨ n = .object (Dict.ofList [("me", .ref 1),
          ("next", .ref 2)]) ∨ n = .list [.ref 1, .bool true, .ref 1] := by
        simpa [keeper, Variables.scope, Graph.ring] using hn
      rcases hn with rfl | rfl | rfl
      · simp [Node.children] at hx
      · have hchildren : .number x ∈ [Value.ref 1, .ref 2] := hx
        simp at hchildren
      · simp [Node.children] at hx
  have hplain : ∀ text, slip (.int 3 (by decide)) (.float negativeZero) = .string text →
      '$' ∉ text.toList := by
    intro text htext
    cases htext
  have hsetter : filing.action.params =
      Builtin.setting .server "a" (slip (.int 3 (by decide)) (.float negativeZero)) := rfl
  have hcomparer : ∀ x, (expecting x).action.params =
      comparison .server "a" (filed (.float x) (.int 0 Number.inRange_zero)) (some 7) :=
    fun _ => rfl
  have hrecognizes := fun x => (Bot.recognizes_setting keeper "a" hg hfinite hplain hsetter
    (hcomparer x)).2 keeper.reopened keptUp_reopened
  refine ⟨(hrecognizes three).1 ?_, (hrecognizes negativeZero).2 fun hsame => ?_⟩
  · refine (same_filed _ _).trans ((Json.agrees_stored_iff_same ?_ ?_).1 ?_)
    · exact ordered_filed _ _
    · exact ordered_filed _ _
    · decide +kernel
  · have hagrees := (Json.agrees_stored_iff_same (ordered_filed _ _) (ordered_filed _ _)).2
      ((same_filed _ _).symm.trans hsame)
    exact absurd hagrees (by decide +kernel)

end Shipped

end ActionChain
