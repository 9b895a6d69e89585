import ActionChain.Proofs.Guild.Arrival

/-!
# Guilds Left Behind

Why a bound on attempts matters to guilds that were announced.

The history is short. A guild is announced, and the pass that is called for
waits for it. With a bound on its attempts the pass gives up at some time, and
nobody is left. When the guild arrives after all, it is not news, so its handler
calls for nothing. Whatever the bound, and whatever chains and listeners there
are, this can happen; so the policies that leave no guild behind are those
without a bound (`Watch.initialized_iff`).

## Main definitions

* `Scene.Plays`: turns of calls lead from one scene to another.

## Theorems

* `Station.alone_attempt`: an attempt that finds a single guild unavailable.
* `Scene.plays_gaveUp`: a pass with a bound gives up.
* `Watch.exists_abandoned`: the history.
* `Watch.initialized_iff`: which policies leave no guild behind.
-/

namespace ActionChain

variable {β : Type}

open Routine
open Station (Aside Loaded Announced)

/-! ## A pass that gives up -/

theorem Hub.alone_lift {κ α : Type} (r : Routine (Bot β) α) (hub : Hub β κ) :
    (desk.lift r).alone hub = ⟨(r.alone hub.bot).value,
      { hub with bot := (r.alone hub.bot).state }, (r.alone hub.bot).elapsed⟩ := by
  let put (bot : Bot β) (hub : Hub β κ) : Hub β κ := { hub with bot }
  have hput (bot : Bot β) (hub : Hub β κ) : (put bot hub).bot = bot := rfl
  exact alone_within hput (fun _ _ _ => rfl) (fun _ => rfl) r hub

/-- An attempt that finds a single guild unavailable changes nothing; the pass
goes on or gives up. -/
theorem Station.alone_attempt [Conduct β] {hub : Station β} {id : UInt64} {name : String}
    (hdirectory : hub.surroundings.directory = [⟨id, name, false⟩])
    (hnew : id ∉ hub.bot.loadedGuilds) (polls : Nat) :
    ((attempt polls).alone hub).state = hub ∧
    ((attempt polls).alone hub).value =
      if Pass.exhausted hub.bot.settings.guildPoll (polls + 1) then
        .inr (.gaveUp (polls + 1) [id])
      else .inl (polls + 1) := by
  have hlook : (Pass.look [⟨id, name, false⟩]).alone hub.bot = ⟨⟨[], [id]⟩, hub.bot, 0⟩ := by
    simp [Pass.look, alone_bind, hnew]
  simp only [attempt, Pass.attempt, alone_bind, alone_read, hdirectory, Hub.alone_lift, hlook,
    Pass.greet, alone_pure]
  by_cases hexhausted : Pass.exhausted hub.bot.settings.guildPoll (polls + 1)
  · simp [hexhausted, Hub.desk]
  · simp only [Hub.desk, List.isEmpty_cons, hexhausted]
    exact ⟨rfl, rfl⟩

namespace Scene

/-- Turns of its calls lead from one scene to another. -/
def Plays (s t : Scene β Presence) : Prop := ∃ order, s.play order = t

namespace Plays

variable {s t u : Scene β Presence}

theorem refl (s : Scene β Presence) : Plays s s := ⟨[], rfl⟩

theorem trans (hst : Plays s t) (htu : Plays t u) : Plays s u := by
  rcases hst with ⟨order, rfl⟩
  rcases htu with ⟨order', rfl⟩
  exact ⟨order ++ order', List.foldl_append ..⟩

theorem turn (i : Nat) (h : s.turn i = t) : Plays s t := ⟨[i], h⟩

end Plays

variable [Conduct β]

/-- A single call, made of a station's attempts. -/
def single (hub : Station β) (call : Call (Station β)) (history : List Mark) : Scene β Presence :=
  ⟨hub, [.underWay ⟨Station.attempt, call⟩], history⟩

variable {hub : Station β} {id : UInt64} {name : String}

/-- A pass under way takes a step of which nothing is recorded. -/
theorem turn_passing {hub' : Station β} {pass : Routine (Station β) (Nat ⊕ InitReport)}
    {call : Call (Station β)}
    (hstep : (Standing.underWay ⟨Station.attempt, .passing pass⟩).step hub =
      (hub', .underWay ⟨Station.attempt, call⟩)) (history : List Mark) :
    (single hub (.passing pass) history).turn 0 = single hub' call history := by
  have hmarks (holder : Option Nat) (t : Stage) : Standing.marks holder 0 .passing t = [] := by
    cases t <;> rfl
  simp [turn, single, hstep, Standing.stage, Call.stage, hmarks]

/-- A pass that nobody interferes with runs its attempt alone. -/
theorem plays_alone (pass : Routine (Station β) (Nat ⊕ InitReport)) (hub : Station β)
    (history : List Mark) :
    Plays (single hub (.passing pass) history)
      (single (pass.alone hub).state (.passing (.done (pass.alone hub).value)) history) := by
  induction pass generalizing hub with
  | done outcome => exact .refl _
  | act change next ih =>
      exact (Plays.turn 0 (turn_passing rfl history)).trans (ih hub (change hub))
  | sleep ms next ih => exact (Plays.turn 0 (turn_passing rfl history)).trans (ih hub)

/-- An attempt that finds a single guild unavailable is followed by another, or
by giving up. -/
theorem plays_attempt (hdirectory : hub.surroundings.directory = [⟨id, name, false⟩])
    (hnew : id ∉ hub.bot.loadedGuilds) (history : List Mark) (polls : Nat) :
    Plays (single hub (.passing (Station.attempt polls)) history)
      (single hub (if Pass.exhausted hub.bot.settings.guildPoll (polls + 1) then
        .releasing (.gaveUp (polls + 1) [id]) else .passing (Station.attempt (polls + 1)))
        history) := by
  have ⟨hstate, hvalue⟩ := Station.alone_attempt hdirectory hnew polls
  have halone := plays_alone (Station.attempt polls) hub history
  rw [hstate, hvalue] at halone
  refine halone.trans (.turn 0 (turn_passing ?_ history))
  split <;> rfl

/-- With a bound, a pass that only ever finds one guild, and finds it unavailable,
gives up on it. -/
theorem plays_gaveUp (hdirectory : hub.surroundings.directory = [⟨id, name, false⟩])
    (hnew : id ∉ hub.bot.loadedGuilds) {most : Nat}
    (hmost : hub.bot.settings.guildPoll.maxAttempts = some most) (history : List Mark)
    (polls : Nat) : ∃ polls',
      Plays (single hub (.passing (Station.attempt polls)) history)
        (single hub (.releasing (.gaveUp polls' [id])) history) := by
  -- By induction on the attempts that are left.
  induction hleft : most - polls generalizing polls with
  | zero =>
      have hattempt := plays_attempt hdirectory hnew history polls
      have hexhausted : Pass.exhausted hub.bot.settings.guildPoll (polls + 1) = true := by
        simp only [Pass.exhausted, hmost, decide_eq_true_eq]
        omega
      rw [if_pos hexhausted] at hattempt
      exact ⟨polls + 1, hattempt⟩
  | succ left ih =>
      have hattempt := plays_attempt hdirectory hnew history polls
      by_cases hexhausted : Pass.exhausted hub.bot.settings.guildPoll (polls + 1)
      · rw [if_pos hexhausted] at hattempt
        exact ⟨polls + 1, hattempt⟩
      · rw [if_neg hexhausted] at hattempt
        rcases ih (polls + 1) (by omega) with ⟨polls', hplays⟩
        exact ⟨polls', hattempt.trans hplays⟩

/-- A call that gives up on a guild returns, with both flags down. -/
theorem plays_abandoned {bot : Bot β} {presence : Presence}
    (hdirectory : presence.directory = [⟨id, name, false⟩]) (hnew : id ∉ bot.loadedGuilds)
    {most : Nat} (hmost : bot.settings.guildPoll.maxAttempts = some most) : ∃ polls history,
      Plays ((start ⟨bot, .clear, presence⟩).call Station.attempt)
        ⟨⟨bot, .clear, presence⟩, [.returned (some (.gaveUp polls [id]))], history⟩ := by
  let running : Station β := ⟨bot, ⟨true, false⟩, presence⟩
  have hbegin : Plays ((start ⟨bot, .clear, presence⟩).call Station.attempt)
      (single running (.passing (Station.attempt 0)) [.requested 0, .took 0, .started 0]) :=
    ⟨[0, 0, 0], rfl⟩
  have hfound : running.surroundings.directory = [⟨id, name, false⟩] := hdirectory
  rcases plays_gaveUp hfound hnew hmost [.requested 0, .took 0, .started 0] 0 with
    ⟨polls, hgaveUp⟩
  have hend : Plays (single running (.releasing (.gaveUp polls [id]))
      [.requested 0, .took 0, .started 0])
      ⟨⟨bot, .clear, presence⟩, [.returned (some (.gaveUp polls [id]))],
        [.requested 0, .took 0, .started 0]⟩ :=
    ⟨[0, 0], rfl⟩
  exact ⟨polls, _, (hbegin.trans hgaveUp).trans hend⟩

end Scene

/-! ## The history -/

namespace Watch

variable [Conduct β] {overlapping : Prop} {bot : Bot β}

theorem Reached.plays {w : Watch β} (h : Reached overlapping bot w) {scene : Scene β Presence}
    (hplays : w.scene.Plays scene) : Reached overlapping bot { w with scene } := by
  rcases hplays with ⟨order, rfl⟩
  induction order generalizing w with
  | nil => exact h
  | cons i rest ih => exact ih (h.turn i)

/-- A handler that runs to its end without the others. -/
theorem Reached.finish {scene : Scene β Presence} {signal : Signal}
    {rest : Routine (Station β) Bool} {after : List (Handler β)} {arrived handled : List UInt64}
    (h : Reached overlapping bot ⟨scene, ⟨signal, rest⟩ :: after, arrived, handled⟩) :
    Reached overlapping bot
      ⟨if (rest.alone scene.hub).value then
          Scene.call Station.attempt { scene with hub := (rest.alone scene.hub).state }
        else { scene with hub := (rest.alone scene.hub).state },
        after, arrived, signal.arrival?.toList ++ handled⟩ := by
  induction rest generalizing scene with
  | done called => exact h.done [] after rfl
  | act change next ih => exact ih scene.hub (h.act [] after rfl)
  | sleep ms next ih => exact ih (h.sleep [] after rfl)

/-- Midnight on the first day of the year. -/
def midnight : Instant := ⟨⟨1, 1, 1, by decide⟩, 0, 0, Instant.valid_midnight⟩

/-- A guild without roles and members. -/
def bareGuild : CachedGuild := ⟨"", .empty, .empty⟩

/-- The arrival of a guild that was announced calls for nothing, and nobody records
the guild on that account. -/
theorem alone_handle_of_announced [Conduct.Steady β] {s : Station β} {id : UInt64}
    (hannounced : Announced id s) (now : Instant) (g : CachedGuild) :
    (((Signal.guildCreate id g).handle now).alone s).value = false ∧
      (((Signal.guildCreate id g).handle now).alone s).state.bot.loadedGuilds =
        s.bot.loadedGuilds := by
  have hold : s.surroundings.isAnnounced id = true := hannounced
  rw [Handler.handle_guildCreate]
  simp only [alone, hold, Bool.not_true]
  refine ⟨?_, ?_⟩
  · simp only [Handler.welcome, alone_bind, alone_read, alone_pure, Bool.false_and]
  · exact ((Handler.keeps_welcome id g false).alone Aside.refl Aside.trans _).bot.loadedGuilds

/-- With a bound on attempts a guild can arrive too late. -/
theorem exists_abandoned [Conduct.Steady β] (overlapping : Prop)
    (hnew : bot.loadedGuilds = []) {most : Nat}
    (hmost : bot.settings.guildPoll.maxAttempts = some most) : ∃ w, Reached overlapping bot w ∧
      w.scene.AllReturned ∧ w.handling = [] ∧ 1 ∈ w.handled ∧ ¬ Loaded 1 w.scene.hub := by
  -- The guild is announced, and the call for a pass gives up on it.
  have hstart : Reached overlapping bot _ := .start
  have hready := (hstart.receive (.ready [1]) midnight (.inr rfl) nofun).finish
  have hdirectory : (Presence.empty.announce 1).directory = [⟨1, "", false⟩] := by decide
  rcases Scene.plays_abandoned hdirectory (by simp [hnew]) hmost with ⟨polls, history, hplays⟩
  have hgaveUp : Reached overlapping bot
      ⟨⟨⟨bot, .clear, Presence.empty.announce 1⟩, [.returned (some (.gaveUp polls [1]))], history⟩,
        [], [], []⟩ :=
    hready.plays hplays
  -- Then it arrives.
  let arrived : Station β := ⟨bot, .clear, ⟨Cache.empty.arrive 1 bareGuild, Dict.empty.insert 1 ()⟩⟩
  have hcached : Reached overlapping bot
      ⟨⟨arrived, [.returned (some (.gaveUp polls [1]))], history⟩, [], [], []⟩ :=
    hgaveUp.platform (Cache.empty.arrive 1 bareGuild) (by simp)
  have hsignal : ∀ id ∈ (Signal.guildCreate 1 bareGuild).arrival?, id ≠ 0 ∧
      (arrived.surroundings.cache.guilds.get? id).isSome = true := by
    rintro _ ⟨⟩
    exact ⟨by decide, rfl⟩
  have hfinish := (hcached.receive (.guildCreate 1 bareGuild) midnight (.inr rfl) hsignal).finish
  have hannounced : Announced 1 arrived := rfl
  rcases alone_handle_of_announced hannounced midnight bareGuild with ⟨hvalue, hloaded⟩
  simp only [hvalue] at hfinish
  refine ⟨_, hfinish, ?_, rfl, List.mem_cons_self, ?_⟩
  · rintro standing hmem
    exact ⟨_, List.mem_singleton.1 hmem⟩
  · have hnone : arrived.bot.loadedGuilds = [] := hnew
    simp [Loaded, hloaded, hnone]

/-- When everybody has returned, a guild whose arrival has been handled is
recorded, or the policy bounds the attempts of a pass and one gave up on the
guild; handlers that overlap must have returned as well. And the bound is to
blame: the policies under which every such guild is recorded, whatever happens,
are those without one. -/
theorem initialized_iff [Conduct.Steady β] (overlapping : Prop) (hnew : bot.loadedGuilds = []) :
    (∀ w, Reached overlapping bot w → w.scene.AllReturned → ¬ overlapping ∨ w.handling = [] →
      ∀ id ∈ w.handled, Loaded id w.scene.hub ∨
        ∃ report, .returned (some report) ∈ w.scene.standings ∧
          report.Abandons bot.settings.guildPoll id) ∧
    ((∀ w, Reached overlapping bot w → w.scene.AllReturned → ¬ overlapping ∨ w.handling = [] →
      ∀ id ∈ w.handled, Loaded id w.scene.hub) ↔ bot.settings.guildPoll.maxAttempts = none) := by
  have hrecorded {w : Watch β} (h : Reached overlapping bot w) (hreturned : w.scene.AllReturned)
      (hidle : ¬ overlapping ∨ w.handling = []) {id : UInt64} (hid : id ∈ w.handled) :=
    h.sound.recorded hreturned hidle hid
  refine ⟨fun w h hreturned hidle id hid => hrecorded h hreturned hidle hid, ?_, ?_⟩
  · intro hall
    by_contra hbound
    rcases Option.ne_none_iff_exists'.1 hbound with ⟨most, hmost⟩
    rcases exists_abandoned overlapping hnew hmost with
      ⟨w, h, hreturned, hidle, hmem, hloaded⟩
    exact hloaded (hall w h hreturned (.inr hidle) 1 hmem)
  · intro hnone w h hreturned hidle id hid
    refine (hrecorded h hreturned hidle hid).resolve_right ?_
    rintro ⟨report, -, hbound, -⟩
    exact hbound hnone

/-- A bot whose passes make one attempt. -/
def impatient : Bot Shipped :=
  .load ⟨{ Settings.standard with guildPoll := ⟨500, some 1⟩ }, .null, [], []⟩ .empty
    (fun _ _ _ => none) id

theorem initialized_iff_impatient : impatient.loadedGuilds = [] ∧
    ¬ ∀ w, Reached False impatient w → w.scene.AllReturned → ¬ False ∨ w.handling = [] →
      ∀ id ∈ w.handled, Loaded id w.scene.hub := by
  refine ⟨rfl, fun hall => ?_⟩
  have hnone := (initialized_iff False (rfl : impatient.loadedGuilds = [])).2.1 hall
  cases hnone

end Watch

end ActionChain
