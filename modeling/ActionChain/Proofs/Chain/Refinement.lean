import ActionChain.Proofs.Chain.Tabled

/-!
# A Chain Cannot Tell the Arena from a Table

A run does to the variables what it does to their table.

Forgetting the arena takes a bot to one with a table. The two are related as
long as the variables are well-formed, and every handler respects that: what it
looks up counts as what the table says, what it stores shows in the table under
one key, and everything else is the same state on both sides. Handlers are gone
through act by act, so the relation also survives whatever others do in between,
as long as they do the same to the table.

The parameters of a handler were read, and what is read is ordered; so a
structured value comes out of the arena with its members where they were.

## Main definitions

* `Bot.tabled`: the bot with the table of its variables.
* `Bot.Refines`: well-formed variables, and their table.
* `Chain.Corresponds`: ends of two runs that say the same.

## Theorems

* `Bot.storeJson_table`, `Bot.storeValue_table`: storing writes to the table.
* `Bot.table_storeJson_of_ne`, `Bot.table_storeValue_of_ne`: and under one key
  only.
* `Bot.Refines.storeJson`, `Bot.Refines.storeValue`: storing on both sides.
* `Bot.Refines.compactWhen`: compaction leaves the table alone.
* `Template.renderIn_table`: a template reads the same.
* `Tabled.respects_builtin`, `Tabled.respects_shipped`: the handlers.
* `Tabled.respects_report`: a run.
* `Chain.corresponds_table`: runs on the arena and on its table correspond.
-/

namespace ActionChain

variable {α β : Type}

/-! ## Parameters that were read -/

theorem Step.params_eq_ok {step : Step} {read? : Source → Option α} {p : α}
    (h : step.params read? = .ok p) : read? step.action.paramSource = some p := by
  unfold params at h
  split at h
  · rename_i q hread
    cases h
    exact hread
  · cases h

theorem ordered_of_required {field : Option Source} {j : Json}
    (h : Source.required Source.value? field = some j) : j.Ordered := by
  rcases Option.bind_eq_some_iff.1 h with ⟨source, -, hread⟩
  exact Source.ordered_of_value? hread

theorem Builtin.Assignment.ordered {source : Source} {a : Assignment}
    (h : read? source = some a) : a.value.Ordered := by
  simp only [read?, Option.bind_eq_bind, Option.bind_eq_some_iff] at h
  rcases h with ⟨field, -, scope, -, key, -, value, hvalue, hrecord⟩
  cases hrecord
  exact ordered_of_required hvalue

theorem Builtin.Params.ordered {source : Source} {p : Params} (h : read? source = some p)
    {a : Assignment} (ha : p.set = some a) : a.value.Ordered := by
  simp only [read?, Option.bind_eq_bind, Option.bind_eq_some_iff] at h
  rcases h with ⟨field, -, set, hset, message, -, channel, -, stop, -, goto, -, hrecord⟩
  cases hrecord
  cases ha
  -- The field is missing or null, or an assignment was read from it.
  cases hfield : field "set" with
  | none =>
      rw [hfield] at hset
      cases hset
  | some source =>
      rw [hfield, Source.withDefault] at hset
      unfold Source.nullable? at hset
      split at hset
      · cases hset
      · rcases Option.map_eq_some_iff.1 hset with ⟨a', hread, hsame⟩
        cases hsame
        exact Assignment.ordered hread

theorem Shipped.Comparison.ordered {source : Source} {p : Comparison}
    (h : read? source = some p) : p.equals.Ordered := by
  simp only [read?, Option.bind_eq_bind, Option.bind_eq_some_iff] at h
  rcases h with ⟨field, -, scope, -, key, -, equals, hequals, otherwise, -, hrecord⟩
  cases hrecord
  exact ordered_of_required hequals

/-! ## Storing -/

namespace Bot

variable {bot : Bot β}

/-- Storing a tree writes it to the table. -/
theorem storeJson_table (hvars : bot.vars.WellFormed) (s : Scope) (key : String) (j : Json) :
    ∃ vars p, bot.storeJson s key j = ({ bot with vars }, .ok ()) ∧ vars.WellFormed ∧
      vars.table = bot.vars.table.set s key p ∧ (j.Ordered → p = .ofJson j) := by
  have hg := Variables.wellFormed_iff.1 hvars s
  rcases Graph.wellFormed_importJson hg j with ⟨hgrown, hin⟩
  have hset := Graph.set_of_inside hin key
  have hwellFormed := Variables.wellFormed_update hvars s (Graph.wellFormed_set hgrown hset)
  have htable := Variables.table_update hvars s ((bot.vars.scope s).importJson j).1 key
    ((bot.vars.scope s).importJson j).2 rfl fun w hw => Graph.plain_importJson_of_inside hg j hw
  refine ⟨_, _, ?_, hwellFormed, htable, fun hj => Graph.plain_importJson _ hj⟩
  simp only [storeJson, hset]

/-- Storing a value that is there to refer to writes it to the table. -/
theorem storeValue_table (hvars : bot.vars.WellFormed) (s : Scope) (key : String) {v : Value}
    (hv : v.Inside (bot.vars.scope s).nodes.size) :
    ∃ vars, bot.storeValue s key v = ({ bot with vars }, .ok ()) ∧ vars.WellFormed ∧
      vars.table = bot.vars.table.set s key ((bot.vars.scope s).plain v) := by
  have hg := Variables.wellFormed_iff.1 hvars s
  have hset := Graph.set_of_inside hv key
  have hwellFormed := Variables.wellFormed_update hvars s (Graph.wellFormed_set hg hset)
  have htable := Variables.table_update hvars s (bot.vars.scope s) key v rfl fun w _ => rfl
  refine ⟨_, ?_, hwellFormed, htable⟩
  simp only [storeValue, hset]

/-- What the other keys stand for stays what it was. -/
theorem table_storeJson_of_ne (hvars : bot.vars.WellFormed) {s s' : Scope} {key key' : String}
    (hother : (s', key') ≠ (s, key)) (j : Json) :
    (bot.storeJson s key j).1.vars.table.get? s' key' = bot.vars.table.get? s' key' := by
  rcases storeJson_table hvars s key j with ⟨vars, p, hstore, -, htable, -⟩
  rw [hstore, htable, Table.get?_set, if_neg fun h => hother (Prod.ext h.1 h.2)]

/-- A value that leads outside is refused, and then every key stands for what it
did. -/
theorem table_storeValue_of_ne (hvars : bot.vars.WellFormed) {s s' : Scope} {key key' : String}
    (hother : (s', key') ≠ (s, key)) (v : Value) :
    (bot.storeValue s key v).1.vars.table.get? s' key' = bot.vars.table.get? s' key' := by
  by_cases hv : v.Inside (bot.vars.scope s).nodes.size
  · rcases storeValue_table hvars s key hv with ⟨vars, hstore, -, htable⟩
    rw [hstore, htable, Table.get?_set, if_neg fun h => hother (Prod.ext h.1 h.2)]
  · have hrefused : ∃ e, (bot.vars.scope s).set key v = .error e := by
      have hcheck := mt Graph.check_eq_ok_iff.1 hv
      unfold Graph.set
      split
      · rename_i hok
        exact absurd hok hcheck
      · exact ⟨_, rfl⟩
    rcases hrefused with ⟨e, he⟩
    simp only [storeValue, he]

end Bot

/-! ## Forgetting the arena -/

/-- The bot with the table of its variables. -/
def Bot.tabled (bot : Bot β) : Tabled β := ⟨{ bot with vars := .empty }, bot.vars.table⟩

/-- The variables are well-formed, and this is their table. -/
structure Bot.Refines (a : Bot β) (t : Tabled β) : Prop where
  wellFormed : a.vars.WellFormed
  tabled : a.tabled = t

namespace Bot.Refines

variable {a : Bot β} {t : Tabled β}

/-- A function that does not look at the variables keeps the relation. -/
theorem frame (f : Bot β → Bot β) (h : a.Refines t)
    (hf : ∀ bot vars, f { bot with vars := vars } = { f bot with vars := vars }) :
    (f a).Refines { t with bot := f t.bot } := by
  rcases h with ⟨hvars, rfl⟩
  -- Putting the variables in place afterwards is no change, so the function kept them.
  have hkept : (f a).vars = a.vars := (congrArg Bot.vars (hf a a.vars) :)
  refine ⟨?_, ?_⟩
  · rw [hkept]
    exact hvars
  · simp only [Bot.tabled, hf a .empty, hkept]

/-- A look at anything but the variables finds the same on both sides. -/
theorem respects_read (f : Bot β → α) (hf : ∀ bot vars, f { bot with vars := vars } = f bot) :
    Routine.Respects (Bot.Refines (β := β)) Eq (Routine.read f)
      (Routine.read fun t => f t.bot) := by
  refine .read fun a t hat => ?_
  rcases hat with ⟨-, rfl⟩
  exact (hf a .empty).symm

/-- Storing a tree that was read writes it to the table. -/
theorem storeJson (h : a.Refines t) (s : Scope) (key : String) {j : Json} (hj : j.Ordered) :
    (a.storeJson s key j).1.Refines { t with table := t.table.set s key (.ofJson j) } ∧
      (a.storeJson s key j).2 = .ok () := by
  rcases h with ⟨hvars, rfl⟩
  rcases Bot.storeJson_table hvars s key j with ⟨vars, p, hstore, hwellFormed, htable, hp⟩
  rw [hstore]
  refine ⟨⟨hwellFormed, ?_⟩, rfl⟩
  simp only [Bot.tabled, htable, hp hj]

/-- Storing a value that does not refer to anything writes it to the table. -/
theorem storeValue (h : a.Refines t) (s : Scope) (key : String) {v : Value}
    (hv : ∀ size, v.Inside size) :
    (a.storeValue s key v).1.Refines
        { t with table := t.table.set s key ((a.vars.scope s).plain v) } ∧
      (a.storeValue s key v).2 = .ok () := by
  rcases h with ⟨hvars, rfl⟩
  rcases Bot.storeValue_table hvars s key (hv _) with ⟨vars, hstore, hwellFormed, htable⟩
  rw [hstore]
  refine ⟨⟨hwellFormed, ?_⟩, rfl⟩
  simp only [Bot.tabled, htable]

/-- Compaction moves nodes, of which the table knows nothing. -/
theorem compactWhen (h : a.Refines t) (schedule : Nat → Bool) (k : Nat) :
    (a.compactWhen schedule k).Refines t := by
  have halike := (Bot.Alike.refl_iff.2 h.wellFormed).compactWhen (fun _ => false) schedule k
  rcases halike.elim with ⟨vars, hcompact, hvars⟩
  rw [hcompact]
  rcases h with ⟨-, rfl⟩
  refine ⟨Variables.wellFormed_iff.2 fun s => (hvars s).right, ?_⟩
  simp only [Bot.tabled, ← hvars.table_eq]
  rfl

end Bot.Refines

/-! ## Reading -/

/-- A template reads the same. -/
theorem Template.renderIn_table (template : String) (subject : Subject) (args : List String)
    (vars : Variables) :
    renderIn template subject args vars.table = render template subject args vars := by
  have hvalue : ∀ p : Placeholder,
      p.valueIn subject args vars.table = p.value subject args vars := by
    intro p
    cases p with
    | keyed s key =>
        simp only [Placeholder.valueIn, Placeholder.value, Variables.get?_table, Option.map_map,
          Function.comp_def, Graph.display_plain]
    | _ => rfl
  have hpiece : Piece.valueIn subject args vars.table = Piece.value subject args vars := by
    funext piece
    cases piece with
    | literal c => rfl
    | placeholder p => simp only [Piece.valueIn, Piece.value, hvalue]
  rw [renderIn, render, hpiece]

namespace Tabled

open ChainError (Agree)

theorem holds_table {p : Shipped.Comparison} (hp : p.equals.Ordered) (vars : Variables) :
    holds p vars.table = p.holds vars := by
  have hactual : ((vars.table.get? p.scope p.key).getD .null).toJson =
      (vars.scope p.scope).toJson (((vars.scope p.scope).get? p.key).getD .null) := by
    rw [Variables.get?_table]
    cases (vars.scope p.scope).get? p.key with
    | none => rfl
    | some v => exact Graph.toJson_plain _ v
  rw [holds, hactual, Plain.toJson_ofJson, ← Graph.toJson_importJson Graph.empty hp]
  rfl

/-- A value and what it counts as stand for the same number, or are refused by
agreeing complaints. -/
theorem agree_numberOf (key : String) (g : Graph) (v : Option Value) :
    Agree (Shipped.numberOf key v) (numberOf key (v.map g.plain)) := by
  cases v with
  | none => exact .refl _
  | some v =>
      cases v with
      | ref id => exact .error (.notNumber key id 0)
      | _ => exact .refl _

/-! ## The built-in action -/

theorem respects_assign (step : Step) {a : Option Builtin.Assignment}
    (ha : ∀ x, a = some x → x.value.Ordered) :
    Routine.Respects (Bot.Refines (β := β)) Agree (Builtin.assign step a) (assign step a) := by
  cases a with
  | none => exact .pure (.refl _)
  | some x =>
      refine .atomic fun b t hbt => ?_
      have hordered : (Builtin.assignedJson step x.value b.vars).Ordered := by
        have hx := ha x rfl
        cases hvalue : x.value with
        | string template => trivial
        | _ =>
            rw [hvalue] at hx
            exact hx
      -- The template is rendered before the write, when both sides read the same.
      have hsame : Plain.ofJson (Builtin.assignedJson step x.value b.vars) =
          assigned step x.value t.table := by
        rcases hbt with ⟨-, rfl⟩
        cases x.value with
        | string template =>
            refine congrArg Plain.text ?_
            exact (Template.renderIn_table template step.subject step.args b.vars).symm
        | _ => rfl
      rcases hbt.storeJson x.scope x.key hordered with ⟨hrefines, hok⟩
      rw [hsame] at hrefines
      exact ⟨hrefines, .of_ok hok rfl⟩

theorem respects_send (channel : UInt64) (text : String) :
    Routine.Respects (Bot.Refines (β := β)) Agree (Builtin.send channel text)
      (send channel text) := by
  refine .atomic fun b t hbt => ⟨?_, ?_⟩
  · refine hbt.frame (fun bot => (bot.send channel text).1) fun bot vars => ?_
    simp only [Bot.send]
    cases bot.gateway bot.deliveries channel text <;> rfl
  · -- The platform decides in view of the messages, which are equal.
    rcases hbt with ⟨-, rfl⟩
    have hsame : (Bot.send { b with vars := .empty } channel text).2 = (b.send channel text).2 := by
      simp only [Bot.send]
      cases b.gateway b.deliveries channel text <;> rfl
    simp only [Bot.tabled, hsame]
    exact .refl _

theorem respects_speak (step : Step) (p : Builtin.Params) :
    Routine.Respects (Bot.Refines (β := β)) Agree (Builtin.speak step p) (speak step p) := by
  unfold Builtin.speak speak
  cases p.message with
  | none => exact .pure (.refl _)
  | some template =>
      have hread : Routine.Respects (Bot.Refines (β := β)) Eq
          (Routine.read fun bot => step.render template bot.vars)
          (Routine.read fun t => Template.renderIn template step.subject step.args t.table) := by
        refine .read fun b t hbt => ?_
        rcases hbt with ⟨-, rfl⟩
        exact (Template.renderIn_table template step.subject step.args b.vars).symm
      refine hread.bind fun text text' htext => ?_
      subst htext
      cases p.channel.or step.subject.channelId? with
      | none => exact .pure (.refl _)
      | some channel => exact respects_send channel text

/-- The built-in action cannot tell the arena from a table. -/
theorem respects_builtin (step : Step) :
    Routine.Respects (Bot.Refines (β := β)) Reply.Agrees (Builtin.handle step)
      (builtin step) := by
  unfold Builtin.handle builtin
  cases hparams : step.params Builtin.Params.read? with
  | error e => exact .pure (step.agrees_reply (.refl _))
  | ok p =>
      have hordered : ∀ x, p.set = some x → x.value.Ordered :=
        fun x hx => Builtin.Params.ordered (Step.params_eq_ok hparams) hx
      refine (respects_assign step hordered).bind fun x y hxy => ?_
      cases hxy with
      | error h => exact .pure (step.agrees_reply (.error h))
      | ok u =>
          refine (respects_speak step p).bind fun x y hxy => ?_
          cases hxy with
          | error h => exact .pure (step.agrees_reply (.error h))
          | ok u => exact .pure (step.agrees_reply (.refl _))

/-! ## The shipped mods -/

theorem respects_increment (p : Shipped.Increment) :
    Routine.Respects (Bot.Refines (β := β)) Agree (Routine.atomic p.apply)
      (Routine.atomic (increment p)) := by
  refine .atomic fun b t hbt => ?_
  have hnumber : Agree (Shipped.numberOf p.key (b.lookUp p.scope p.key))
      (numberOf p.key (t.table.get? p.scope p.key)) := by
    rcases hbt with ⟨-, rfl⟩
    simp only [Bot.tabled, Variables.get?_table]
    exact agree_numberOf p.key _ _
  unfold Shipped.Increment.apply increment
  -- From here on only the two outcomes of the look-up matter, and they agree.
  generalize Shipped.numberOf p.key (b.lookUp p.scope p.key) = x at hnumber ⊢
  generalize numberOf p.key (t.table.get? p.scope p.key) = y at hnumber ⊢
  cases hnumber with
  | error h => exact ⟨hbt, .error h⟩
  | ok x =>
      rcases hbt.storeValue p.scope p.key (v := .number (x + p.amount)) fun _ => trivial with
        ⟨hrefines, hok⟩
      exact ⟨hrefines, .of_ok hok rfl⟩

theorem respects_choose (p : Shipped.Choice) :
    Routine.Respects (Bot.Refines (β := β)) Agree (Routine.atomic p.apply)
      (Routine.atomic (choose p)) := by
  refine .atomic fun b t hbt => ?_
  unfold Shipped.Choice.apply choose
  by_cases hempty : p.choices.isEmpty
  · rw [if_pos hempty, if_pos hempty]
    exact ⟨hbt, .refl _⟩
  · rw [if_neg hempty, if_neg hempty]
    -- Both sides take the same number, as many were taken before.
    have hdraw := hbt.frame (fun bot => bot.draw.1) fun _ _ => rfl
    have hnumber : t.bot.draw.2 = b.draw.2 := by
      rcases hbt with ⟨-, rfl⟩
      rfl
    simp only [hnumber]
    rcases hdraw.storeValue p.scope p.key
        (v := .text ((p.choices[b.draw.2 % p.choices.length]?).getD "")) fun _ => trivial with
      ⟨hrefines, hok⟩
    exact ⟨hrefines, .of_ok hok rfl⟩

/-- An act whose outcomes agree, followed by the next action unless it failed. -/
theorem respects_andNext (step : Step) {r : Routine (Bot β) (Except ChainError Unit)}
    {r' : Routine (Tabled β) (Except ChainError Unit)}
    (h : Routine.Respects Bot.Refines Agree r r') :
    Routine.Respects Bot.Refines Reply.Agrees (do return Shipped.andNext step (← r))
      (do return Shipped.andNext step (← r')) :=
  h.bind fun _ _ hxy => .pure (step.agrees_reply (hxy.map _))

/-- Nor can the shipped mods. -/
theorem respects_shipped (s : Shipped) (step : Step) :
    Routine.Respects (Bot.Refines (β := β)) Reply.Agrees (s.handle step) (shipped s step) := by
  cases s with
  | ifVar =>
      simp only [Shipped.handle, shipped]
      cases hparams : step.params Shipped.Comparison.read? with
      | error e => exact .pure (step.agrees_reply (.refl _))
      | ok p =>
          have hordered := Shipped.Comparison.ordered (Step.params_eq_ok hparams)
          refine (Routine.Respects.read (Q := Eq) fun b t hbt => ?_).bind fun x y hxy => ?_
          · rcases hbt with ⟨-, rfl⟩
            exact (holds_table hordered b.vars).symm
          · subst hxy
            exact .pure (step.agrees_reply (.refl _))
  | incrementVar =>
      simp only [Shipped.handle, shipped]
      cases step.params Shipped.Increment.read? with
      | error e => exact .pure (step.agrees_reply (.refl _))
      | ok p => exact respects_andNext step (respects_increment p)
  | wait =>
      simp only [Shipped.handle, shipped]
      cases step.params Shipped.readPause? with
      | error e => exact .pure (step.agrees_reply (.refl _))
      | ok ms =>
          exact (Routine.Respects.pause ms).bind fun _ _ _ => .pure (step.agrees_reply (.refl _))
  | randomPick =>
      simp only [Shipped.handle, shipped]
      cases step.params Shipped.Choice.read? with
      | error e => exact .pure (step.agrees_reply (.refl _))
      | ok p => exact respects_andNext step (respects_choose p)
  | joinLogger => exact .pure (step.agrees_reply (.refl _))

/-! ## Runs -/

theorem respects_advance (chain : Chain) (subject : Subject) (index : Nat) (args : List String) :
    Routine.Respects Bot.Refines (fun x y => Agree x.1 y.1 ∧ x.2 = y.2)
      (chain.advance subject index args) (advance chain subject index args) := by
  unfold Chain.advance advance
  cases chain.actions[index]? with
  | none => exact .pure ⟨.refl _, rfl⟩
  | some action =>
      have hreply : ∀ x y : Reply, x.Agrees y →
          Agree (x.result.map (Continuation.advance index))
            (y.result.map (Continuation.advance index)) ∧ x.args = y.args :=
        fun x y hxy => ⟨hxy.result.map _, hxy.args⟩
      have hhandler := Bot.Refines.respects_read (Chain.handlerOf (β := Shipped) action)
        fun _ _ => rfl
      refine hhandler.bind fun handler handler' hsame => ?_
      subst hsame
      cases handler with
      | some behaviour =>
          exact (respects_shipped behaviour _).bind fun x y hxy => .pure (hreply x y hxy)
      | none => exact (respects_builtin _).bind fun x y hxy => .pure (hreply x y hxy)

theorem respects_reportFrom (chain : Chain) (subject : Subject) (limit left index : Nat)
    (args : List String) (started : List Nat) :
    Routine.Respects Bot.Refines Chain.Report.Agrees
      (chain.reportFrom subject limit left index args started)
      (reportFrom chain subject limit left index args started) := by
  induction left generalizing index args started with
  | zero =>
      unfold Chain.reportFrom reportFrom
      by_cases hin : index < chain.actions.length
      · rw [if_pos hin, if_pos hin]
        exact .pure ⟨rfl, .refl _⟩
      · rw [if_neg hin, if_neg hin]
        exact .pure ⟨rfl, .refl _⟩
  | succ left ih =>
      unfold Chain.reportFrom reportFrom
      by_cases hin : index < chain.actions.length
      · rw [if_pos hin, if_pos hin]
        -- Both begin with the same step; what is left depends on where it leads.
        refine (respects_advance chain subject index args).bind fun x y hxy => ?_
        rcases x with ⟨result, args⟩
        rcases y with ⟨result', args'⟩
        rcases hxy with ⟨hresult, hargs⟩
        simp only at hresult hargs
        subst hargs
        cases hresult with
        | error h => exact .pure ⟨rfl, .error h⟩
        | ok a =>
            cases a with
            | terminated => exact .pure ⟨rfl, .refl _⟩
            | next target => exact ih target args (index :: started)
      · rw [if_neg hin, if_neg hin]
        exact .pure ⟨rfl, .refl _⟩

/-- Nor can a run. -/
theorem respects_report (chain : Chain) (subject : Subject) (args : List String) (start : Nat) :
    Routine.Respects Bot.Refines Chain.Report.Agrees (chain.report subject args start)
      (report chain subject args start) := by
  have hlimit := Bot.Refines.respects_read (fun bot : Bot Shipped => bot.settings.maxChainSteps)
    fun _ _ => rfl
  refine hlimit.bind fun limit limit' hsame => ?_
  subst hsame
  exact respects_reportFrom chain subject limit limit start args []

end Tabled

namespace Chain

/-- Ends of two runs that say the same, one on an arena and one on a table. -/
structure Corresponds (x : Routine.Finished (Bot β) Report)
    (y : Routine.Finished (Tabled β) Report) : Prop where
  /-- The same steps were begun, so every branch was the same. -/
  started : x.value.started = y.value.started
  /-- Equal traces, or agreeing errors. -/
  outcome : ChainError.Agree x.value.outcome y.value.outcome
  /-- The same messages in the same order. -/
  deliveries : x.state.deliveries = y.state.bot.deliveries
  /-- Well-formed variables, and their table beside everything else. -/
  state : x.state.Refines y.state
  elapsed : x.elapsed = y.elapsed

theorem corresponds_amid {bot : Bot Shipped} {t : Tabled Shipped} (hbot : bot.Refines t)
    (chain : Chain) (subject : Subject) (args : List String) (start : Nat)
    {meddle : Nat → Bot Shipped → Bot Shipped} {meddle' : Nat → Tabled Shipped → Tabled Shipped}
    (hmeddle : ∀ k a t, a.Refines t → (meddle k a).Refines (meddle' k t)) :
    Corresponds ((chain.report subject args start).amid meddle bot)
      ((Tabled.report chain subject args start).amid meddle' t) := by
  rcases (Tabled.respects_report chain subject args start).amid hmeddle hbot with
    ⟨hvalue, hstate, helapsed⟩
  refine ⟨hvalue.started, hvalue.outcome, ?_, hstate, helapsed⟩
  rw [← hstate.tabled]
  rfl

/-- A run on well-formed variables and a run on their table correspond, whatever
others do in between as long as they do the same to the table; left alone in
particular. A report is the run and the steps it began. And writing one key
changes what no other key of either scope stands for, whatever their values
share. -/
theorem corresponds_table {bot : Bot Shipped} (hvars : bot.vars.WellFormed) (chain : Chain)
    (subject : Subject) (args : List String) (start : Nat) :
    Corresponds ((chain.report subject args start).alone bot)
      ((Tabled.report chain subject args start).alone bot.tabled) ∧
    (∀ (meddle : Nat → Bot Shipped → Bot Shipped)
      (meddle' : Nat → Tabled Shipped → Tabled Shipped),
      (∀ k a t, a.Refines t → (meddle k a).Refines (meddle' k t)) →
        Corresponds ((chain.report subject args start).amid meddle bot)
          ((Tabled.report chain subject args start).amid meddle' bot.tabled)) ∧
    chain.run (β := Shipped) subject args start
      = Report.outcome <$> chain.report subject args start ∧
    ∀ s key s' key', (s', key') ≠ (s, key) →
      (∀ j, (bot.storeJson s key j).1.vars.table.get? s' key' = bot.vars.table.get? s' key') ∧
      ∀ v, (bot.storeValue s key v).1.vars.table.get? s' key' = bot.vars.table.get? s' key' := by
  have hbot : bot.Refines bot.tabled := ⟨hvars, rfl⟩
  refine ⟨?_, fun meddle meddle' hmeddle => ?_, ?_, fun s key s' key' hother => ⟨?_, ?_⟩⟩
  · rw [← Routine.amid_id (chain.report subject args start),
      ← Routine.amid_id (Tabled.report chain subject args start)]
    exact corresponds_amid hbot chain subject args start fun _ _ _ h => h
  · exact corresponds_amid hbot chain subject args start hmeddle
  · exact (report_outcome chain subject args start).symm
  · exact fun j => Bot.table_storeJson_of_ne hvars hother j
  · exact fun v => Bot.table_storeValue_of_ne hvars hother v

theorem corresponds_table_ring :
    Bot.ring.vars.WellFormed ∧
    Corresponds ((stumble.report (.guild ⟨1, "home"⟩) [] 0).alone Bot.ring)
      ((Tabled.report stumble (.guild ⟨1, "home"⟩) [] 0).alone Bot.ring.tabled) ∧
    (∀ schedule, Corresponds
      ((stumble.report (.guild ⟨1, "home"⟩) [] 0).amid (Bot.compactWhen schedule) Bot.ring)
      ((Tabled.report stumble (.guild ⟨1, "home"⟩) [] 0).amid (fun _ => id) Bot.ring.tabled)) ∧
    -- Two keys lead to one node here, and that node leads back to itself.
    ∀ j, (Bot.ring.storeJson .server "b" j).1.vars.table.get? .server "c" =
      Bot.ring.vars.table.get? .server "c" := by
  have hvars : Bot.ring.vars.WellFormed := ⟨⟨by decide, by decide⟩, Graph.wellFormed_empty⟩
  rcases corresponds_table hvars stumble (.guild ⟨1, "home"⟩) [] 0 with
    ⟨halone, hamid, -, hframe⟩
  refine ⟨hvars, halone, fun schedule => ?_, (hframe .server "b" .server "c" (by decide)).1⟩
  exact hamid _ _ fun k a t hat => hat.compactWhen schedule k

end Chain

end ActionChain
