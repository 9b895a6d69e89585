import ActionChain.Proofs.Dispatch.Handled

/-!
# What Dispatching Leaves Alone

Chains, mods and dispatchers work on the variables, the user cache, the files
and the messages. The settings are there to be read, and which guilds are
recorded as initialized is the business of the initialization passes. So
whatever is dispatched, by any number of chains and however it is interrupted,
the settings and that record stay as they are, act by act.

Mods are code of their own, so this is asked of their behaviours
(`Conduct.Steady`) and proved of the shipped and the scripted ones.

## Main definitions

* `Bot.Steady`: the same settings and the same record of guilds.
* `Conduct.Steady`: behaviours that leave both alone.

## Theorems

* `Dispatch.keeps_message`: dealing with a message leaves both alone.
-/

namespace ActionChain

variable {β : Type}

/-- The settings and the record of initialized guilds are as before. -/
structure Bot.Steady (before after : Bot β) : Prop where
  settings : after.settings = before.settings
  loadedGuilds : after.loadedGuilds = before.loadedGuilds

theorem Bot.Steady.refl (bot : Bot β) : bot.Steady bot := ⟨rfl, rfl⟩

instance : Bot.Admits (Bot.Steady (β := β)) where
  of_handled h := ⟨by rw [h], by rw [h]⟩

/-- Behaviours that leave the settings and the record of guilds alone. -/
class Conduct.Steady (β : Type) [Conduct β] : Prop where
  keeps_onEvent (behaviour : β) (e : PlatformEvent) :
    (Conduct.onEvent behaviour e).Keeps Bot.Steady
  keeps_handle (behaviour : β) (step : Step) : (Conduct.handle behaviour step).Keeps Bot.Steady

instance : Conduct.Steady Shipped := ⟨Conduct.Keeps.keeps_onEvent, Conduct.Keeps.keeps_handle⟩

instance : Conduct.Steady Performer := ⟨Conduct.Keeps.keeps_onEvent, Conduct.Keeps.keeps_handle⟩

variable [Conduct β]

instance [Conduct.Steady β] : Conduct.Keeps β Bot.Steady :=
  ⟨Conduct.Steady.keeps_onEvent, Conduct.Steady.keeps_handle⟩

theorem Dispatch.keeps_message [Conduct.Steady β] (m : Message) (now : Instant) :
    (message (β := β) m now).Keeps Bot.Steady := by
  unfold message
  split
  · exact .pure _
  · refine (keeps_runEvent EventName.anyMessage (.message m)).bind fun _ => ?_
    have hinspect : (Routine.modify fun bot : Bot β => bot.inspect m).Keeps Bot.Steady :=
      .modify fun _ => ⟨rfl, rfl⟩
    refine hinspect.bind fun _ => (Bot.Admits.keeps_read _).bind fun marker => ?_
    cases Invocation.parse? marker m.content with
    | none => exact .pure _
    | some invocation =>
        refine (Bot.Admits.keeps_read _).bind fun commands => ?_
        refine (keeps_runCommands m invocation.args commands).bind fun tally => ?_
        have hrecord : (Routine.modify fun bot : Bot β =>
            { bot with users := bot.users.recordCommand m.author now }).Keeps Bot.Steady :=
          .modify fun _ => ⟨rfl, rfl⟩
        have hpersist : (Routine.modify (Bot.persist (β := β))).Keeps Bot.Steady :=
          .modify fun _ => ⟨rfl, rfl⟩
        split
        · exact hrecord.bind fun _ => hpersist.bind fun _ => .pure _
        · exact hpersist.bind fun _ => .pure _

end ActionChain
