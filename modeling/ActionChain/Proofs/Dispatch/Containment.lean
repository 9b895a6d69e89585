import ActionChain.Proofs.Chain.Course
import ActionChain.Proofs.Dispatch.Handled

/-!
# Failures Are Contained

What dispatching an event does, whatever fails on the way.

Telling the listeners and running the configured chains are two loops, and neither looks
at a result before it goes on: the first throws the results away, and the second counts
those of chains that completed (`Dispatch.event_eq`). So both loops visit all that there
is to visit, in order, and every visit starts from what the one before left, no matter how
that one ended (`Routine.Series`). In particular nothing is taken back. A chain that fails
leaves the bot where its steps led, the failing one included, and the next chain begins
there.

Who listens is asked before the first is told, and which chains are configured is asked
after the last one. The configuration is not for mods to change.

## Main definitions

* `Routine.Visit`, `Routine.Series`: visits one after the other.
* `Registry.Listening`: only mods that listen are listed as listeners.
* `Dispatch.hear`: what a mod does about an event.
* `Bot.SameEvents`, `Bot.Untouched`: what dispatching leaves alone.

## Theorems

* `Routine.exists_series`: a loop visits everything, whatever comes of it.
* `Bot.listening_register`: mods are listed as listeners only if they listen.
* `Dispatch.event_eq`: dispatching as two loops.
* `Dispatch.event_contained`: all of this about dispatching an event.
-/

namespace ActionChain

variable {β : Type}

/-! ## Visits -/

namespace Routine

variable {σ ι α : Type}

/-- What a routine did about an item when it ran alone. -/
structure Visit (σ ι α : Type) where
  before : σ
  item : ι
  result : α
  after : σ

/-- From one state to another, a routine ran for one item after the other, each time from
the state the last time left. -/
inductive Series (f : ι → Routine σ α) : σ → List (Visit σ ι α) → σ → Prop where
  | nil (s : σ) : Series f s [] s
  | cons {s t : σ} {visits : List (Visit σ ι α)} (i : ι)
      (hrest : Series f ((f i).alone s).state visits t) :
      Series f s (⟨s, i, ((f i).alone s).value, ((f i).alone s).state⟩ :: visits) t

theorem Series.mem {f : ι → Routine σ α} {s t : σ} {visits : List (Visit σ ι α)}
    (h : Series f s visits t) {v : Visit σ ι α} (hv : v ∈ visits) :
    v.result = ((f v.item).alone v.before).value ∧ v.after = ((f v.item).alone v.before).state := by
  induction h with
  | nil => cases hv
  | cons i _ ih =>
      rcases List.mem_cons.1 hv with rfl | hv
      · exact ⟨rfl, rfl⟩
      · exact ih hv

/-- A loop visits everything in order, whatever comes of it. -/
theorem exists_series (f : ι → Routine σ α) (items : List ι) (s : σ) :
    ∃ visits, Series f s visits ((items.mapM f).alone s).state ∧
      visits.map (·.item) = items ∧ ((items.mapM f).alone s).value = visits.map (·.result) := by
  induction items generalizing s with
  | nil => exact ⟨[], .nil s, rfl, rfl⟩
  | cons i rest ih =>
      rcases ih ((f i).alone s).state with ⟨visits, hseries, hitems, hresults⟩
      have hloop : ((i :: rest).mapM f).alone s =
          let first := (f i).alone s
          let others := (rest.mapM f).alone first.state
          ⟨first.value :: others.value, others.state, first.elapsed + others.elapsed⟩ := by
        simp only [List.mapM_cons, alone_bind, alone_pure, Nat.add_zero]
      rw [hloop]
      refine ⟨_ :: visits, .cons i hseries, congrArg (i :: ·) hitems, ?_⟩
      exact congrArg (_ :: ·) hresults

end Routine

/-! ## Listeners -/

/-- Only mods that listen are listed as listeners. -/
def Registry.Listening (r : Registry β) : Prop := ∀ m ∈ r.listeners, m.listener.isSome

theorem Registry.Listening.bind {r : Registry β} (h : r.Listening) (m : BotMod β) :
    (r.bind m).Listening := by
  intro k hk
  unfold Registry.bind at hk
  by_cases hlistener : m.listener.isSome = true
  · rw [if_pos hlistener] at hk
    rcases List.mem_append.1 hk with hk | hk
    · exact h k hk
    · rwa [List.mem_singleton.1 hk]
  · rw [if_neg hlistener] at hk
    exact h k hk

namespace Bot

theorem listening_note {bot : Bot β} (h : bot.registry.Listening) (label : Option String)
    (n : Note) : (bot.note label n).registry.Listening := by
  cases label <;> exact h

mutual

/-- Registering keeps it so, whatever mods register while they start up. -/
theorem listening_register : ∀ (m : BotMod β) {bot : Bot β}, bot.registry.Listening →
    (bot.register m).1.registry.Listening
  | ⟨name, label, companions, failure, listener, action⟩, bot, h => by
      rw [register]
      split
      · exact h
      · have hstarted := listening_note h label .started
        have hwithin := listening_registerCompanions label companions hstarted
        cases failure with
        | some reason => exact hwithin
        | none => exact hwithin.bind _

theorem listening_registerCompanions (label : Option String) : ∀ (mods : List (BotMod β))
    {bot : Bot β}, bot.registry.Listening → (registerCompanions label mods bot).registry.Listening
  | [], _, h => h
  | m :: rest, _, h => by
      rw [registerCompanions]
      have hfirst := listening_register m h
      exact listening_registerCompanions label rest (listening_note hfirst label _)

end

theorem listening_registerAll {bot : Bot β} (h : bot.registry.Listening)
    (mods : List (BotMod β)) : (bot.registerAll mods).1.registry.Listening := by
  induction mods generalizing bot with
  | nil => exact h
  | cons m rest ih => exact ih (listening_register m h)

/-! ## What is left alone -/

/-- The configured events are the same. -/
def SameEvents (before after : Bot β) : Prop := after.events = before.events

/-- The user cache, the record of initialized guilds and the files are as before. -/
structure Untouched (before after : Bot β) : Prop where
  users : after.users = before.users
  loadedGuilds : after.loadedGuilds = before.loadedGuilds
  storage : after.storage = before.storage

instance : Admits (SameEvents (β := β)) where
  of_handled h := by rw [h]; rfl

instance : Admits (Untouched (β := β)) where
  of_handled h := by rw [h]; exact ⟨rfl, rfl, rfl⟩

theorem Untouched.trans {a b c : Bot β} (h : a.Untouched b) (h' : b.Untouched c) :
    a.Untouched c :=
  ⟨h'.users.trans h.users, h'.loadedGuilds.trans h.loadedGuilds, h'.storage.trans h.storage⟩

end Bot

/-! ## Two loops -/

namespace Dispatch

variable [Conduct β]

/-- What a mod does about an event. One that does not listen does nothing. -/
def hear (e : PlatformEvent) (m : BotMod β) : Routine (Bot β) (Except String Unit) :=
  match m.listener with
  | some behaviour => Conduct.onEvent behaviour e
  | none => pure (.ok ())

/-- The chains that have something to run. -/
def runnable (chains : List Chain) : List Chain := chains.filter fun c => !c.actions.isEmpty

theorem tell_eq (e : PlatformEvent) (mods : List (BotMod β)) :
    tell e mods = (fun _ => ()) <$> mods.mapM (hear e) := by
  induction mods with
  | nil => rfl
  | cons m rest ih =>
      rw [List.mapM_cons, tell, hear]
      cases m.listener with
      | some behaviour => simp only [ih, map_bind, bind_pure_comp, Functor.map_map]
      | none => simp only [ih, pure_bind, bind_pure_comp, Functor.map_map]

theorem runAll_eq (subject : Subject) (chains : List Chain) :
    runAll (β := β) subject chains =
      (fun results => results.countP (·.isOk)) <$>
        (runnable chains).mapM fun c => c.run subject [] 0 := by
  induction chains with
  | nil => rfl
  | cons c rest ih =>
      unfold runAll
      by_cases hempty : c.actions.isEmpty = true
      · rw [if_pos hempty, ih, runnable, runnable, List.filter_cons_of_neg (by simp [hempty])]
      · have hcons : runnable (c :: rest) = c :: runnable rest := by simp [runnable, hempty]
        rw [if_neg hempty, ih, hcons, List.mapM_cons]
        simp only [map_bind, bind_map_left, map_pure]
        refine congrArg _ (funext fun result => congrArg _ (funext fun results => ?_))
        cases result <;> simp [Except.isOk, Except.toBool, Nat.add_comm]

/-- Dispatching as two loops, wherever they are cut and whoever gets a turn in between. -/
theorem event_eq (e : PlatformEvent) :
    event (β := β) e = (do
      let listeners ← Routine.read fun bot => bot.registry.listenersOf e.busName
      let _ ← listeners.mapM (hear e)
      match e.eventName? with
      | none => pure 0
      | some name => do
        let chains ← Routine.read fun bot => bot.findEvents name
        let results ← (runnable chains).mapM fun c => c.run e.subject [] 0
        pure (results.countP (·.isOk))) := by
  unfold event emit runEvent
  simp only [tell_eq, runAll_eq, bind_assoc, bind_map_left]
  refine congrArg _ (funext fun listeners => congrArg _ (funext fun _ => ?_))
  cases e.eventName? with
  | none => rfl
  | some name => simp only [map_eq_pure_bind]

/-- The state and the count that dispatching ends with, when nobody interferes. -/
theorem event_alone (bot : Bot β) (e : PlatformEvent) :
    let listeners := bot.registry.listenersOf e.busName
    let between := ((listeners.mapM (hear e)).alone bot).state
    let chains := runnable (e.eventName?.elim [] between.findEvents)
    let ran := (chains.mapM fun c : Chain => c.run e.subject [] 0).alone between
    ((event e).alone bot).state = ran.state ∧
      ((event e).alone bot).value = ran.value.countP (·.isOk) := by
  rw [event_eq]
  simp only [Routine.alone_bind, Routine.alone_read]
  cases e.eventName? with
  | none => exact ⟨rfl, rfl⟩
  | some name =>
      simp only [Routine.alone_bind, Routine.alone_read, Routine.alone_pure]
      exact ⟨rfl, rfl⟩

/-- Dispatching an event contains every failure.

Every mod that listens is told once, in order and whatever came of telling the others.
Then every configured chain of the event that has something to run is run once, in order,
from its first action and without arguments, whatever came of running the others; and
those that completed are counted. Each of these begins where the one before left the bot,
and a run leaves the bot where its last step did, also if it failed. Where mods leave the
user cache, the record of guilds and the files alone, so does every act. -/
theorem event_contained [Conduct.Keeps β Bot.SameEvents] (bot : Bot β) (e : PlatformEvent) :
    let done := (event e).alone bot
    let listeners := bot.registry.listenersOf e.busName
    ∃ (told : List (Routine.Visit (Bot β) (BotMod β) (Except String Unit))) (between : Bot β)
      (runs : List (Routine.Visit (Bot β) Chain (Except ChainError Trace))),
      Routine.Series (hear e) bot told between ∧ told.map (·.item) = listeners ∧
      (bot.registry.Listening → ∀ m ∈ listeners, m.name = e.busName ∧
        ∃ behaviour, m.listener = some behaviour ∧ hear e m = Conduct.onEvent behaviour e) ∧
      Routine.Series (fun c => c.run e.subject [] 0) between runs done.state ∧
      runs.map (·.item) = runnable (e.eventName?.elim [] bot.findEvents) ∧
      done.value = runs.countP (·.result.isOk) ∧
      (∀ r ∈ runs, ∃ n,
        let course := Chain.course r.item e.subject [] 0 r.before
        r.item.Stops r.before.settings.maxChainSteps course n ∧
          r.result = r.item.outcome r.before.settings.maxChainSteps (course n) ∧
          r.after = (course n).bot) ∧
      (Conduct.Keeps β Bot.Untouched →
        (event (β := β) e).Keeps Bot.Untouched ∧ bot.Untouched done.state) := by
  intro done listeners
  rcases event_alone bot e with ⟨hstate, hvalue⟩
  rcases Routine.exists_series (hear e) listeners bot with ⟨told, htold, htoldItems, -⟩
  -- Telling changes no configuration, so the chains are those that were configured at first.
  have hevents : ((listeners.mapM (hear e)).alone bot).state.events = bot.events := by
    have hhear : ∀ m : BotMod β, (hear e m).Keeps Bot.SameEvents := by
      intro m
      rw [hear]
      cases m.listener with
      | some behaviour => exact Conduct.Keeps.keeps_onEvent behaviour e
      | none => exact .pure _
    exact (Routine.Keeps.mapM hhear listeners).alone (fun _ => rfl) (fun h h' => h'.trans h) bot
  have hfind : (((bot.registry.listenersOf e.busName).mapM (hear e)).alone bot).state.findEvents =
      bot.findEvents := by
    funext name
    rw [Bot.findEvents, hevents, Bot.findEvents]
  simp only [hfind] at hstate hvalue
  rcases Routine.exists_series (fun c : Chain => c.run (β := β) e.subject [] 0)
    (runnable (e.eventName?.elim [] bot.findEvents)) _ with ⟨runs, hruns, hrunItems, hresults⟩
  refine ⟨told, _, runs, htold, htoldItems, fun hlistening m hm => ?_, ?_, hrunItems, ?_,
    fun r hr => ?_, fun hkeeps => ?_⟩
  · rcases List.mem_filter.1 hm with ⟨hmem, hname⟩
    rcases Option.isSome_iff_exists.1 (hlistening m hmem) with ⟨behaviour, hbehaviour⟩
    exact ⟨beq_iff_eq.1 hname, behaviour, hbehaviour, by rw [hear, hbehaviour]⟩
  · exact hstate ▸ hruns
  · rw [hvalue, hresults, List.countP_map]
    rfl
  · rcases hruns.mem hr with ⟨hresult, hafter⟩
    rcases r.item.exists_stop e.subject [] 0 r.before with ⟨n, hstops, hrun⟩
    rw [hrun] at hresult hafter
    exact ⟨n, hstops, hresult, hafter⟩
  · have hevent : (event (β := β) e).Keeps Bot.Untouched := keeps_event e
    exact ⟨hevent, hevent.alone (fun _ => ⟨rfl, rfl, rfl⟩) .trans bot⟩

/-! ### A dispatch with failures -/

/-- An action that sets a variable of the server. -/
def jot (key : String) : Action :=
  ⟨none, [("set", .object [("key", .string key), ("scope", .string "server"),
    ("value", .bool true)])]⟩

/-- Four events of one name: one that fails in its second step, one that is empty, and two
that complete. -/
def welcomes : List Chain :=
  [[jot "first", ⟨some "wait", []⟩, jot "lost"], [], [jot "third"], [jot "fourth"]].map
    fun actions => ⟨EventName.userJoinsServer, actions⟩

/-- Two mods that listen to joins, the first of which fails. -/
def greeters : List (BotMod Performer) :=
  [ScriptedMod.toMod ⟨"sulky", "guildMemberAdd", [], none, some (some "no"), none⟩,
    ScriptedMod.toMod ⟨"eager", "guildMemberAdd", [], none, some none, none⟩]

/-- A bot without mods. -/
def bareHall : Bot Performer :=
  .load ⟨.standard, .null, [], welcomes⟩ .empty (fun _ _ _ => none) id

def hall : Bot Performer := (bareHall.registerAll (Shipped.manifest .shipped ++ greeters)).1

def ann : PlatformEvent := .memberJoined ⟨1, ⟨2, "ann", false⟩⟩

/-- Both mods are told. Three chains are run, of which two complete, and the first step of
the one that failed is kept. -/
theorem event_contained_hall :
    let done := (event ann).alone hall
    hall.registry.Listening ∧ done.value = 2 ∧
    done.state.notes.map (·.1) = ["sulky", "eager", "sulky", "eager"] ∧
    done.state.vars.server.keys = ["first", "fourth", "third"] ∧
    hall.Untouched done.state ∧
    ∃ runs : List (Routine.Visit (Bot Performer) Chain (Except ChainError Trace)),
      runs.map (·.item.actions.length) = [3, 1, 1] ∧ runs.countP (·.result.isOk) = 2 := by
  have hbare : bareHall.registry.Listening := nofun
  have hlistening : hall.registry.Listening := by
    rw [hall]
    exact Bot.listening_registerAll hbare _
  have hvalue : ((event ann).alone hall).value = 2 := by decide +kernel
  have hnotes : ((event ann).alone hall).state.notes.map (·.1) =
      ["sulky", "eager", "sulky", "eager"] := by decide +kernel
  have hkeys : ((event ann).alone hall).state.vars.server.keys = ["first", "fourth", "third"] := by
    decide +kernel
  have hchains : (runnable (ann.eventName?.elim [] hall.findEvents)).map (·.actions.length) =
      [3, 1, 1] := by decide +kernel
  rcases event_contained hall ann with ⟨told, between, runs, -, -, -, -, hitems, hcount, -, hkept⟩
  rw [hvalue] at hcount
  rw [← hitems, List.map_map] at hchains
  exact ⟨hlistening, hvalue, hnotes, hkeys, (hkept inferInstance).2, runs, hchains, hcount.symm⟩

end Dispatch

end ActionChain
