import ActionChain.Proofs.Guild.Attempt

/-!
# Handlers of Signals

What a handler owes to the guilds it announces.

Most handlers dispatch an event and announce nothing. Two announce guilds: the
one that is told which guilds there are, and the one that handles an arrival.
Both call for a pass on account of a guild that nobody announced before, except
that the second looks whether the guild is recorded by then. This is a matter
of the state at one act, so it is stated of every act of a handler, from any
state (`Routine.CallsFor`), and holds whoever else takes turns.

## Main definitions

* `Station.Onward`, `Station.Aside`: what handlers do, and what dispatching does.
* `Routine.CallsFor`: a handler that calls for a pass for what it announces.
* `Handler`, `Handler.Sound`: a handler under way, and what holds of it.

## Theorems

* `Handler.Sound.act`, `Handler.Sound.sleep`: a handler stays sound.
* `Handler.sound_receive`: every handler is sound when its signal comes in.
-/

namespace ActionChain

variable {β : Type}

namespace Station

/-- The settings stay, and no guild that was recorded or announced is lost. -/
structure Onward (before after : Station β) : Prop where
  settings : after.bot.settings = before.bot.settings
  loaded : ∀ id, Loaded id before → Loaded id after
  announced : ∀ id, Announced id before → Announced id after

theorem Recording.onward {before after : Station β} (h : Recording before after) :
    Onward before after where
  settings := h.settings
  loaded _ hid := h.loaded hid
  announced id hid := by
    unfold Announced
    rw [h.surroundings]
    exact hid

/-- Nothing but the variables, files and messages of the bot is touched. -/
structure Aside (before after : Station β) : Prop where
  bot : before.bot.Steady after.bot
  flags : Hub.SameFlags before after
  surroundings : after.surroundings = before.surroundings

theorem Aside.refl (s : Station β) : Aside s s := ⟨.refl _, rfl, rfl⟩

theorem Aside.trans {s t u : Station β} (hst : Aside s t) (htu : Aside t u) : Aside s u where
  bot := ⟨htu.bot.settings.trans hst.bot.settings,
    htu.bot.loadedGuilds.trans hst.bot.loadedGuilds⟩
  flags := htu.flags.trans hst.flags
  surroundings := htu.surroundings.trans hst.surroundings

theorem Aside.onward {before after : Station β} (h : Aside before after) :
    Onward before after where
  settings := h.bot.settings
  loaded id hid := by
    unfold Loaded
    rw [h.bot.loadedGuilds]
    exact hid
  announced id hid := by
    unfold Announced
    rw [h.surroundings]
    exact hid

end Station

open Station (Aside Onward Loaded Announced)

namespace Routine

/-- A handler that calls for a pass whenever it announces a guild first, unless
it sees that the guild is recorded. -/
inductive CallsFor : Routine (Station β) Bool → Prop
  | done (called : Bool) : CallsFor (.done called)
  | act {change : Station β → Station β} {next : Station β → Routine (Station β) Bool}
      (hnew : ∀ s id, Announced id (change s) → ¬ Announced id s →
        (next s).Attains (fun _ => True) (Loaded id) (· = true))
      (hnext : ∀ s, CallsFor (next s)) : CallsFor (.act change next)
  | sleep {ms : Nat} {next : Routine (Station β) Bool} (h : CallsFor next) :
      CallsFor (.sleep ms next)

/-- Who announces nothing need not call for anything. -/
theorem Keeps.callsFor {r : Routine (Station β) Bool} (h : r.Keeps Aside) : r.CallsFor := by
  induction h with
  | done called => exact .done called
  | act hchange _ ih =>
      refine .act (fun s id hafter hbefore => absurd ?_ hbefore) ih
      rw [Announced, ← (hchange s).surroundings]
      exact hafter
  | sleep _ ih => exact .sleep ih

end Routine

namespace Signal

/-- The guild whose arrival a signal is. -/
def arrival? : Signal → Option UInt64
  | .guildCreate id _ => some id
  | _ => none

end Signal

/-- What is left of the handler of a signal. -/
structure Handler (β : Type) where
  signal : Signal
  rest : Routine (Station β) Bool

/-- What holds of a handler under way: it goes onward and leaves the flags alone;
it calls for what it announces; and the guild whose arrival it handles is
announced by the time it ends. -/
structure Handler.Sound (s : Station β) (h : Handler β) : Prop where
  keeps : h.rest.Keeps fun before after => Onward before after ∧ Hub.SameFlags before after
  calls : h.rest.CallsFor
  arrival : ∀ id ∈ h.signal.arrival?, id ≠ 0 ∧
    (Announced id s ∨ h.rest.Attains (fun _ => True) (Announced id) fun _ => False)

namespace Handler

variable {s s' : Station β} {signal : Signal}

theorem keeps_lift {α : Type} {r : Routine (Bot β) α} (h : r.Keeps Bot.Steady) :
    (Station.lift r).Keeps Aside :=
  h.within fun _ _ hsteady => ⟨hsteady, rfl, rfl⟩

theorem Sound.of_keeps_aside {rest : Routine (Station β) Bool} (h : rest.Keeps Aside)
    (harrival : signal.arrival? = none) : Sound s ⟨signal, rest⟩ where
  keeps := h.mono fun _ _ haside => ⟨haside.onward, haside.flags⟩
  calls := h.callsFor
  arrival := by simp [harrival]

/-- What others do does not unsettle a handler as long as nothing announced is
lost. -/
theorem Sound.mono {h : Handler β} (hsound : h.Sound s)
    (hannounced : ∀ id, Announced id s → Announced id s') : h.Sound s' where
  keeps := hsound.keeps
  calls := hsound.calls
  arrival id hid := ⟨(hsound.arrival id hid).1, (hsound.arrival id hid).2.imp_left (hannounced id)⟩

theorem Sound.act {change : Station β → Station β} {next : Station β → Routine (Station β) Bool}
    (h : Sound s ⟨signal, .act change next⟩) : Sound (change s) ⟨signal, next s⟩ := by
  cases h.keeps with
  | act hchange hkeeps =>
      cases h.calls with
      | act _ hcalls =>
          refine ⟨hkeeps s, hcalls s, fun id hid => ⟨(h.arrival id hid).1, ?_⟩⟩
          by_cases hafter : Announced id (change s)
          · exact .inl hafter
          · rcases (h.arrival id hid).2 with hbefore | hattains
            · exact .inl ((hchange s).1.announced id hbefore)
            · cases hattains with
              | act hnext => exact .inr (hnext s trivial hafter)

theorem Sound.sleep {ms : Nat} {next : Routine (Station β) Bool}
    (h : Sound s ⟨signal, .sleep ms next⟩) : Sound s ⟨signal, next⟩ := by
  cases h.keeps with
  | sleep hkeeps =>
      cases h.calls with
      | sleep hcalls =>
          refine ⟨hkeeps, hcalls, fun id hid => ⟨(h.arrival id hid).1, ?_⟩⟩
          refine (h.arrival id hid).2.imp_right fun hattains => ?_
          cases hattains with
          | sleep hnext => exact hnext

/-- A handler that ends has announced the guild that arrived. -/
theorem Sound.done {called : Bool} (h : Sound s ⟨signal, .done called⟩) {id : UInt64}
    (hid : id ∈ signal.arrival?) : id ≠ 0 ∧ Announced id s := by
  rcases h.arrival id hid with ⟨hne, hannounced | hattains⟩
  · exact ⟨hne, hannounced⟩
  · cases hattains with
    | done hfalse => exact hfalse.elim

/-- Announcing a guild loses nothing. -/
theorem onward_announce (id : UInt64) (s : Station β) :
    Onward s (s.adapt (·.announce id)) ∧ Hub.SameFlags s (s.adapt (·.announce id)) := by
  refine ⟨⟨rfl, fun _ h => h, fun other hother => ?_⟩, rfl⟩
  have hbefore : s.surroundings.isAnnounced other = true := hother
  have hafter : (s.surroundings.announce id).isAnnounced other = true := by
    rw [Presence.isAnnounced_announce, hbefore, Bool.or_true]
  exact hafter

theorem keeps_announce (ids : List UInt64) : (Signal.announce (β := β) ids).Keeps
    fun before after => Onward before after ∧ Hub.SameFlags before after := by
  induction ids with
  | nil => exact .pure ()
  | cons id rest ih => exact (Routine.Keeps.modify (onward_announce id)).bind fun _ => ih

/-- Whatever is announced on the way, the call comes at the end. -/
theorem callsFor_announce (ids : List UInt64) :
    (Signal.announce (β := β) ids >>= fun _ => pure true).CallsFor := by
  induction ids with
  | nil => exact .done true
  | cons id rest ih =>
      exact .act (fun _ _ _ _ => (Routine.Attains.trivial _).bind fun _ _ => .pure rfl) fun _ => ih

/-- The handler of announced guilds calls for a pass in any case. -/
theorem sound_ready [Conduct β] (now : Instant) (ids : List UInt64) :
    Sound s ⟨.ready ids, (Signal.ready ids).handle now⟩ where
  keeps := (keeps_announce ids).bind fun _ => .pure true
  calls := callsFor_announce ids
  arrival := nofun

variable [Conduct β]

/-- What the handler of an arrival does once the guild is announced. -/
def welcome (id : UInt64) (g : CachedGuild) (isNew : Bool) : Routine (Station β) Bool := do
  let _ ← Signal.publish (.guildAvailable ⟨id, g.name⟩)
  let loaded ← Routine.read fun s : Station β => decide (id ∈ s.bot.loadedGuilds)
  pure (isNew && !loaded)

theorem handle_guildCreate (now : Instant) (id : UInt64) (g : CachedGuild) :
    (Signal.guildCreate id g).handle (β := β) now =
      .act (Station.adapt (·.announce id)) fun s => welcome id g !s.surroundings.isAnnounced id :=
  rfl

/-- A guild that is new is called for unless it is seen to be recorded. -/
theorem attains_welcome (id : UInt64) (g : CachedGuild) :
    (welcome (β := β) id g true).Attains (fun _ => True) (Loaded id) (· = true) := by
  have hread : (Routine.read fun s : Station β => decide (id ∈ s.bot.loadedGuilds)).Attains
      (fun _ => True) (Loaded id) (· = false) :=
    .read fun _ _ hgoal => decide_eq_false hgoal
  refine (Routine.Attains.trivial _).bind fun _ _ => hread.bind fun loaded hloaded => ?_
  exact .pure (by simp [hloaded])

variable [Conduct.Steady β]

theorem keeps_publish (e : PlatformEvent) : (Signal.publish (β := β) e).Keeps Aside :=
  (keeps_lift (Dispatch.keeps_event e)).bind fun _ => .pure _

theorem keeps_welcome (id : UInt64) (g : CachedGuild) (isNew : Bool) :
    (welcome (β := β) id g isNew).Keeps Aside :=
  (keeps_publish _).bind fun _ => (Routine.Keeps.read _ .refl).bind fun _ => .pure _

/-- The handler of an arrival asks whether the guild is recorded if it is the
first to announce it. -/
theorem sound_guildCreate (now : Instant) {id : UInt64} (hid : id ≠ 0) (g : CachedGuild) :
    Sound s ⟨.guildCreate id g, (Signal.guildCreate id g).handle now⟩ := by
  rw [handle_guildCreate]
  constructor
  case keeps =>
    refine .act (onward_announce id) fun s => ?_
    exact (keeps_welcome id g _).mono fun _ _ haside => ⟨haside.onward, haside.flags⟩
  case calls =>
    refine .act (fun s other hafter hbefore => ?_) fun s => (keeps_welcome id g _).callsFor
    -- The guild is the only one announced here, so it was new.
    have hother : other = id := by
      have hafter' : (s.surroundings.announce id).isAnnounced other = true := hafter
      rw [Presence.isAnnounced_announce, Bool.or_eq_true] at hafter'
      exact of_decide_eq_true (hafter'.resolve_right hbefore)
    subst hother
    have hnew : s.surroundings.isAnnounced other = false := Bool.eq_false_iff.2 hbefore
    rw [hnew]
    exact attains_welcome other g
  case arrival =>
    rintro _ ⟨⟩
    refine ⟨hid, .inr (.act fun s _ hgoal => absurd ?_ hgoal)⟩
    have hself : (s.surroundings.announce id).isAnnounced id = true := by
      simp [Presence.isAnnounced_announce]
    exact hself

/-- Every handler is sound when its signal comes in. -/
theorem sound_receive (now : Instant) (hsignal : ∀ id ∈ signal.arrival?, id ≠ 0) :
    Sound s ⟨signal, signal.handle now⟩ := by
  cases signal with
  | ready ids => exact sound_ready now ids
  | guildCreate id g => exact sound_guildCreate now (hsignal id rfl) g
  | guildDelete id unavailable => exact .of_keeps_aside (.pure _) rfl
  | memberAdd m roles => exact .of_keeps_aside (keeps_publish _) rfl
  | memberRemove m => exact .of_keeps_aside (keeps_publish _) rfl
  | ban m => exact .of_keeps_aside (keeps_publish _) rfl
  | message m =>
      refine .of_keeps_aside ((Routine.Keeps.read _ .refl).bind fun m => ?_) rfl
      refine (keeps_publish _).bind fun _ => ?_
      exact (keeps_lift (Dispatch.keeps_message m now)).bind fun _ => .pure _

end Handler

end ActionChain
