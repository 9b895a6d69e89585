import ActionChain.Proofs.Registration

/-!
# Registering from Within

What happens to the handlers of actions when mods register other mods while they start
up, and duplicates are refused.

A mod that acts is refused if its name has a handler. This is asked before the mod starts
up, and the answer is not looked at again when it is entered, although its companions were
registered in between. So a call to register is an affair with a beginning and an end,
and the calls that are under way at one moment are nested like brackets. Whatever mods do
while they start up, all that ever happens is one of four moves: something is noted, a mod
starts up that may, a mod fails, and a mod is entered (`Moment.Move`).

What a moment is to a later one follows from the moves. A handler is the same later, or is
one of the mods that were starting up already; and a mod that is starting up for a name
which had a handler before was starting up then (`Moment.Keeps`). Hence a handler can be
replaced only by a mod that began to start up when its name was free, and it is replaced
by every such mod that does not fail. Where no mod binds a name while another is starting
up for it, every handler stays; and nowhere else (`Bot.handlers_stay_iff`).

## Main definitions

* `Moment`: the bot at one moment, and the mods that are starting up.
* `Moment.Move`: what can happen next.
* `Moment.Keeps`: what a moment is to a later one.
* `Bot.startUp`, `Bot.startUps`: the moments of calls to register.
* `Bot.moments`: the moments of calls from outside.

## Theorems

* `Moment.Move.keeps`, `Moment.Keeps.trans`: one move, and any number of them.
* `Moment.Passes.takes_over`: a mod that does not fail handles its name in the end.
* `Bot.passes_startUp`: calls to register are made of moves.
* `Bot.handlers_stay_iff`: what becomes of a handler, and when it stays.
-/

namespace ActionChain

variable {β : Type}

/-- The bot at one moment. -/
structure Moment (β : Type) where
  /-- The mods that are starting up, the innermost first. -/
  starting : List (BotMod β)
  bot : Bot β

namespace Moment

/-- The mod that handles actions of a name. -/
def resolve? (a : Moment β) (name : String) : Option (BotMod β) := a.bot.registry.resolve? name

/-! ## Moves -/

/-- What can happen next, where duplicates are refused. -/
inductive Move : Moment β → Moment β → Prop where
  | note (starting : List (BotMod β)) (bot : Bot β) (label : Option String) (n : Note) :
      Move ⟨starting, bot⟩ ⟨starting, bot.note label n⟩
  /-- A mod starts up. If it acts, its name is free. -/
  | start {starting : List (BotMod β)} {bot : Bot β} {m : BotMod β}
      (hfree : m.action.isSome → bot.registry.resolve? m.name = none) :
      Move ⟨starting, bot⟩ ⟨m :: starting, bot.note m.label .started⟩
  | fail {starting : List (BotMod β)} {bot : Bot β} {m : BotMod β} (hfailure : m.failure.isSome) :
      Move ⟨m :: starting, bot⟩ ⟨starting, bot⟩
  /-- The mod that is starting up is entered, whatever was entered meanwhile. -/
  | bind {starting : List (BotMod β)} {bot : Bot β} {m : BotMod β} (hfailure : m.failure = none) :
      Move ⟨m :: starting, bot⟩ ⟨starting, { bot with registry := bot.registry.bind m }⟩

/-- What a moment is to a later one. -/
structure Keeps (a b : Moment β) : Prop where
  settings : b.bot.settings = a.bot.settings
  /-- A name keeps its handler, or has passed to a mod that was starting up already. -/
  handler : ∀ n k, a.resolve? n = some k → b.resolve? n = some k ∨
    ∃ o ∈ a.starting, o.action.isSome ∧ o.failure = none ∧ o.name = n ∧ b.resolve? n = some o
  /-- For a name that had a handler nobody starts up who was not starting up already. -/
  starting : ∀ o ∈ b.starting, o.action.isSome → (a.resolve? o.name).isSome → o ∈ a.starting

variable {a b c : Moment β} {l l' : List (Moment β)}

theorem Keeps.isSome (h : a.Keeps b) {n : String} (hn : (a.resolve? n).isSome) :
    (b.resolve? n).isSome := by
  rcases Option.isSome_iff_exists.1 hn with ⟨k, hk⟩
  rcases h.handler n k hk with hb | ⟨o, -, -, -, -, hb⟩ <;> rw [hb] <;> rfl

theorem Keeps.trans (h : a.Keeps b) (h' : b.Keeps c) : a.Keeps c where
  settings := h'.settings.trans h.settings
  handler n k hk := by
    have hsome : (a.resolve? n).isSome := by rw [hk]; rfl
    -- Who takes over after the second moment was starting up at the first one, too.
    have hlate : ∀ k', b.resolve? n = some k' → c.resolve? n = some k' ∨
        ∃ o ∈ a.starting, o.action.isSome ∧ o.failure = none ∧ o.name = n ∧
          c.resolve? n = some o := by
      intro k' hk'
      rcases h'.handler n k' hk' with hc | ⟨o, ho, hacts, hlasts, rfl, hc⟩
      · exact .inl hc
      · exact .inr ⟨o, h.starting o ho hacts hsome, hacts, hlasts, rfl, hc⟩
    rcases h.handler n k hk with hb | ⟨o, ho, hacts, hlasts, hname, hb⟩
    · exact hlate k hb
    · rcases hlate o hb with hc | hc
      · exact .inr ⟨o, ho, hacts, hlasts, hname, hc⟩
      · exact .inr hc
  starting o ho hacts hsome := h.starting o (h'.starting o ho hacts (h.isSome hsome)) hacts hsome

/-- What one move keeps. -/
theorem Move.keeps (h : Move a b) : a.Keeps b := by
  cases h with
  | note starting bot label n =>
      refine ⟨bot.note_settings label n, fun n' k hk => .inl ?_, fun o ho _ _ => ho⟩
      rwa [resolve?, bot.note_registry label n]
  | @start starting bot m hfree =>
      refine ⟨bot.note_settings m.label .started, fun n k hk => .inl ?_, fun o ho hacts hsome => ?_⟩
      · rwa [resolve?, bot.note_registry m.label .started]
      · rcases List.mem_cons.1 ho with rfl | ho
        · rw [resolve?, hfree hacts] at hsome
          cases hsome
        · exact ho
  | fail =>
      exact ⟨rfl, fun n k hk => .inl hk, fun o ho _ _ => List.mem_cons_of_mem _ ho⟩
  | @bind starting bot m hfailure =>
      refine ⟨rfl, fun n k hk => ?_, fun o ho _ _ => List.mem_cons_of_mem _ ho⟩
      have hbound := Registry.resolve?_bind bot.registry m n
      by_cases hm : m.action.isSome ∧ n = m.name
      · rw [if_pos hm] at hbound
        exact .inr ⟨m, List.mem_cons_self, hm.1, hfailure, hm.2.symm, hbound⟩
      · rw [if_neg hm] at hbound
        exact .inl (hbound.trans hk)

/-! ## Any number of moves -/

/-- Moves lead from one moment through the moments of a list, and the last of these is the
other moment. -/
inductive Passes : Moment β → List (Moment β) → Moment β → Prop where
  | nil (a : Moment β) : Passes a [] a
  | cons {a b c : Moment β} {l : List (Moment β)} (hmove : Move a b) (hrest : Passes b l c) :
      Passes a (b :: l) c

namespace Passes

theorem single (h : Move a b) : Passes a [b] b := .cons h (.nil b)

theorem append (h : Passes a l b) (h' : Passes b l' c) : Passes a (l ++ l') c := by
  induction h with
  | nil => exact h'
  | cons hmove _ ih => exact .cons hmove (ih h')

theorem getLast? (h : Passes a l b) : (a :: l).getLast? = some b := by
  induction h with
  | nil => rfl
  | cons _ _ ih => rwa [List.getLast?_cons_cons]

theorem settings (h : Passes a l b) : b.bot.settings = a.bot.settings := by
  induction h with
  | nil => rfl
  | cons hmove _ ih => exact ih.trans hmove.keeps.settings

/-- Any moment is kept by all later ones. -/
theorem pairwise (h : Passes a l c) : (a :: l).Pairwise Keeps := by
  induction h with
  | nil => exact List.pairwise_singleton _ _
  | cons hmove _ ih =>
      refine List.pairwise_cons.2 ⟨List.forall_mem_cons.2 ⟨hmove.keeps, fun x hx => ?_⟩, ih⟩
      exact hmove.keeps.trans ((List.pairwise_cons.1 ih).1 x hx)

/-- A mod that acts and does not fail handles its name once it has started up. -/
theorem takes_over (h : Passes a l c) (hdone : c.starting = []) {o : BotMod β}
    (ho : o ∈ a.starting) (hacts : o.action.isSome) (hlasts : o.failure = none) :
    ∃ b ∈ l, b.resolve? o.name = some o := by
  induction h with
  | nil =>
      rw [hdone] at ho
      cases ho
  | @cons a b c l hmove _ ih =>
      -- Either the mod is still starting up, or this move has entered it.
      have hlater : o ∈ b.starting → ∃ x ∈ b :: l, x.resolve? o.name = some o := by
        intro ho
        rcases ih hdone ho with ⟨x, hx, hresolved⟩
        exact ⟨x, List.mem_cons_of_mem b hx, hresolved⟩
      cases hmove with
      | note => exact hlater ho
      | start => exact hlater (List.mem_cons_of_mem _ ho)
      | fail hfailure =>
          rcases List.mem_cons.1 ho with rfl | ho
          · rw [hlasts] at hfailure
            cases hfailure
          · exact hlater ho
      | @bind starting bot m hfailure =>
          rcases List.mem_cons.1 ho with rfl | ho
          · refine ⟨_, List.mem_cons_self, ?_⟩
            rw [resolve?, Registry.resolve?_bind, if_pos ⟨hacts, rfl⟩]
          · exact hlater ho

/-- If every handler stays, a name that has a handler has no other mod starting up for it,
unless that one is going to fail. -/
theorem eq_of_stays (h : Passes a l c) (hdone : c.starting = [])
    (hstays : (a :: l).Pairwise fun x y => ∀ n k, x.resolve? n = some k → y.resolve? n = some k) :
    ∀ x ∈ a :: l, ∀ o ∈ x.starting, o.action.isSome → o.failure = none →
      ∀ k, x.resolve? o.name = some k → k = o := by
  induction h with
  | nil a =>
      intro x hx o ho
      rw [List.mem_singleton.1 hx, hdone] at ho
      cases ho
  | @cons a b c l hmove hrest ih =>
      rcases List.pairwise_cons.1 hstays with ⟨hfirst, hstays⟩
      refine List.forall_mem_cons.2 ⟨fun o ho hacts hlasts k hk => ?_, ih hdone hstays⟩
      rcases (Passes.cons hmove hrest).takes_over hdone ho hacts hlasts with ⟨y, hy, hresolved⟩
      exact Option.some.inj ((hfirst y hy _ k hk).symm.trans hresolved)

end Passes

end Moment

/-! ## The moments of registering -/

namespace Bot

open Moment (Move Passes)

mutual

/-- The moments of a call to register, up to its end, while other mods are starting up. -/
def startUp (starting : List (BotMod β)) : BotMod β → Bot β → List (Moment β)
  | ⟨name, label, companions, failure, listener, action⟩, bot =>
    let m : BotMod β := ⟨name, label, companions, failure, listener, action⟩
    if bot.registry.refuses bot.settings.duplicateMods m then [⟨starting, bot⟩]
    else
      ⟨m :: starting, bot.note label .started⟩ ::
        startUps (m :: starting) label companions (bot.note label .started) ++
          [⟨starting, (bot.register m).1⟩]

/-- The moments of calls to register one after the other, noting how each fared. -/
def startUps (starting : List (BotMod β)) (label : Option String) :
    List (BotMod β) → Bot β → List (Moment β)
  | [], _ => []
  | m :: rest, bot =>
    let (after, result) := bot.register m
    let error := match result with
      | .ok () => none
      | .error e => some e
    let noted := after.note label (.registered error)
    startUp starting m bot ++ ⟨starting, noted⟩ :: startUps starting label rest noted

end

mutual

/-- A call to register is made of moves. -/
theorem passes_startUp (starting : List (BotMod β)) : ∀ (m : BotMod β) {bot : Bot β},
    bot.settings.duplicateMods = .reject →
    Passes ⟨starting, bot⟩ (bot.startUp starting m) ⟨starting, (bot.register m).1⟩
  | ⟨name, label, companions, failure, listener, action⟩, bot, hreject => by
      let m : BotMod β := ⟨name, label, companions, failure, listener, action⟩
      unfold startUp
      by_cases hrefuses : bot.registry.refuses bot.settings.duplicateMods m = true
      · have hbot : (bot.register m).1 = bot := by
          rw [register, if_pos hrefuses]
        rw [if_pos hrefuses, hbot]
        exact .single (.note starting bot none .started)
      · have hfree : m.action.isSome → bot.registry.resolve? m.name = none := by
          intro hacts
          refine Option.not_isSome_iff_eq_none.1 fun hbound => hrefuses ?_
          exact (Registry.refuses_iff _ _ _).2 ⟨hreject, hacts, hbound⟩
        have hwithin := passes_startUps (m :: starting) label companions
          ((congrArg Settings.duplicateMods (bot.note_settings label .started)).trans hreject)
        rw [if_neg hrefuses]
        refine .cons (.start hfree) (hwithin.append (.single ?_))
        -- What is left of the call is that the mod fails or is entered.
        cases failure with
        | some reason =>
            rw [register, if_neg hrefuses]
            exact .fail rfl
        | none =>
            rw [register, if_neg hrefuses]
            exact .bind rfl

/-- And so are calls one after the other. -/
theorem passes_startUps (starting : List (BotMod β)) (label : Option String) :
    ∀ (mods : List (BotMod β)) {bot : Bot β}, bot.settings.duplicateMods = .reject →
    Passes ⟨starting, bot⟩ (bot.startUps starting label mods)
      ⟨starting, registerCompanions label mods bot⟩
  | [], bot, _ => .nil _
  | m :: rest, bot, hreject => by
      have hfirst := passes_startUp starting m hreject
      have hnoted : ∀ n, ((bot.register m).1.note label n).settings.duplicateMods = .reject := by
        intro n
        rw [note_settings]
        exact (congrArg Settings.duplicateMods hfirst.settings).trans hreject
      rw [startUps, registerCompanions]
      refine hfirst.append (.cons (.note starting _ label _) ?_)
      exact passes_startUps starting label rest (hnoted _)

end

/-- Calls from outside are those of the companions of nobody. -/
theorem registerAll_eq (mods : List (BotMod β)) (bot : Bot β) :
    (bot.registerAll mods).1 = registerCompanions none mods bot := by
  induction mods generalizing bot with
  | nil => rfl
  | cons m rest ih => exact ih _

/-- The moments of calls to register from outside, one after the other. -/
def moments (mods : List (BotMod β)) (bot : Bot β) : List (Moment β) :=
  ⟨[], bot⟩ :: bot.startUps [] none mods

theorem passes_moments (mods : List (BotMod β)) {bot : Bot β}
    (hreject : bot.settings.duplicateMods = .reject) :
    Passes ⟨[], bot⟩ (bot.startUps [] none mods) ⟨[], (bot.registerAll mods).1⟩ := by
  rw [registerAll_eq]
  exact passes_startUps [] none mods hreject

/-- How a call ends was decided when it began. -/
theorem register_result (bot : Bot β) (m : BotMod β) :
    (bot.registry.refuses bot.settings.duplicateMods m = true ∧
      bot.register m = (bot, .error (.duplicate m.name))) ∨
    (bot.registry.refuses bot.settings.duplicateMods m = false ∧
      (bot.register m).2 = match m.failure with
        | some reason => .error (.init m.name reason)
        | none => .ok ()) := by
  rcases m with ⟨name, label, companions, failure, listener, action⟩
  rw [register]
  split
  · rename_i hrefuses
    exact .inl ⟨hrefuses, rfl⟩
  · rename_i hfree
    refine .inr ⟨Bool.eq_false_iff.2 hfree, ?_⟩
    cases failure <;> rfl

/-- What becomes of a handler where duplicates are refused, whatever mods register while
they start up. At every later moment a name has the same handler, or one of the mods that
were starting up already. A mod that would take a name which has a handler is refused, with
nothing done, if it begins to start up then. But if it does not fail, it succeeds whenever
the name was free when it began, and takes the name from whoever has it by the end. So the
handlers stay what they are exactly if no name gets a handler while another mod is starting
up for it that does not fail. -/
theorem handlers_stay_iff (bot : Bot β) (hreject : bot.settings.duplicateMods = .reject)
    (mods : List (BotMod β)) :
    (bot.moments mods).getLast? = some ⟨[], (bot.registerAll mods).1⟩ ∧
    ((bot.moments mods).Pairwise fun a b => ∀ n k, a.resolve? n = some k →
      b.resolve? n = some k ∨ ∃ o ∈ a.starting,
        o.action.isSome ∧ o.failure = none ∧ o.name = n ∧ b.resolve? n = some o) ∧
    (∀ a ∈ bot.moments mods, ∀ m : BotMod β,
      (m.action.isSome → (a.resolve? m.name).isSome →
        a.bot.register m = (a.bot, .error (.duplicate m.name))) ∧
      (a.resolve? m.name = none → m.failure = none → (a.bot.register m).2 = .ok ())) ∧
    (((bot.moments mods).Pairwise fun a b => ∀ n k, a.resolve? n = some k → b.resolve? n = some k) ↔
      ∀ a ∈ bot.moments mods, ∀ o ∈ a.starting, o.action.isSome → o.failure = none →
        ∀ k, a.resolve? o.name = some k → k = o) := by
  have hpasses := passes_moments mods hreject
  have hpairwise : (bot.moments mods).Pairwise Moment.Keeps := hpasses.pairwise
  refine ⟨hpasses.getLast?, hpairwise.imp fun h => h.handler, fun a ha m => ?_,
    hpasses.eq_of_stays rfl, fun hown => ?_⟩
  · have hsettings : a.bot.settings = bot.settings := by
      rcases List.mem_cons.1 ha with rfl | ha
      · rfl
      · exact ((List.pairwise_cons.1 hpairwise).1 a ha).settings
    have hrefuses := Registry.refuses_iff a.bot.registry a.bot.settings.duplicateMods m
    rw [hsettings] at hrefuses
    refine ⟨fun hacts hbound => ?_, fun hfree hlasts => ?_⟩
    · rcases a.bot.register_result m with ⟨-, hresult⟩ | ⟨hpassed, -⟩
      · exact hresult
      · have hrefused := hrefuses.2 ⟨hreject, hacts, hbound⟩
        rw [hsettings, hrefused] at hpassed
        cases hpassed
    · rcases a.bot.register_result m with ⟨hrefused, -⟩ | ⟨-, hresult⟩
      · rw [hsettings] at hrefused
        rcases hrefuses.1 hrefused with ⟨-, -, hbound⟩
        rw [Moment.resolve?] at hfree
        rw [hfree] at hbound
        cases hbound
      · rw [hresult, hlasts]
  · refine hpairwise.imp_of_mem fun {a b} ha _ hkeeps n k hk => ?_
    rcases hkeeps.handler n k hk with hb | ⟨o, ho, hacts, hlasts, rfl, hb⟩
    · exact hb
    · rwa [hown a ha o ho hacts hlasts k hk]

/-! ### A handler that is replaced -/

/-- A mod that registers another under its own name while it starts up. -/
def usurper : BotMod Nat :=
  ⟨"greet", some "outer", [⟨"greet", some "inner", [], none, none, some 0⟩], none, none, some 1⟩

/-- The inner mod is entered first. The outer one began when the name was free, so it
succeeds and takes the name, although duplicates are refused. A third one is refused. -/
theorem handlers_stay_iff_usurper :
    strict.settings.duplicateMods = .reject ∧ (strict.register usurper).2 = .ok () ∧
    (strict.moments [usurper]).map (fun a => (a.resolve? "greet").bind (·.label)) =
      [none, none, none, some "inner", some "inner", some "outer", some "outer"] ∧
    (¬ (strict.moments [usurper]).Pairwise fun a b =>
      ∀ n k, a.resolve? n = some k → b.resolve? n = some k) ∧
    ∀ m : BotMod Nat, m.action.isSome → m.name = "greet" →
      (strict.register usurper).1.register m =
        ((strict.register usurper).1, .error (.duplicate "greet")) := by
  have hreject : strict.settings.duplicateMods = .reject := rfl
  rcases handlers_stay_iff strict hreject [usurper] with ⟨hlast, -, hcalls, hstays⟩
  refine ⟨hreject, rfl, by decide +kernel, fun h => ?_, fun m hacts hname => ?_⟩
  · -- At the fourth moment the inner mod handles the name and the outer one is starting up.
    have howned := hstays.1 h ⟨[usurper], _⟩ (List.mem_of_getElem? (i := 3) rfl) usurper
      List.mem_cons_self rfl rfl _ rfl
    exact absurd (congrArg BotMod.label howned) (by decide)
  · have hmem := List.mem_of_getLast? hlast
    have hrefused := (hcalls _ hmem m).1 hacts (by rw [hname]; rfl)
    rwa [hname] at hrefused

end Bot

end ActionChain
