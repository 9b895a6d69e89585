import ActionChain.Dispatch.Command
import ActionChain.Mod.Scripted
import ActionChain.Proofs.Guarantee

/-!
# What Handlers Do to a Bot

Running a chain comes down to acts of its handlers, and a handler that is built
in, shipped or scripted has four things to work on: the variables, the messages
handed to the platform, the numbers of chance that were taken and the notes. An
act of one leaves everything else as it was (`Bot.Handled`).

What is kept by such acts is kept by every chain and every event, however many
of them run and wherever they are interrupted. This is stated once, for any
relation that admits the acts of handlers. Mods are code of their own, so it is
asked of their behaviours (`Conduct.Keeps`) for each relation separately: a mod
may do more than the shipped ones as long as it keeps what matters.

## Main definitions

* `Bot.Handled`: only what handlers work on has changed.
* `Bot.Admits`: relations that admit the acts of handlers.
* `Conduct.Keeps`: behaviours that keep a relation.

## Theorems

* `Chain.keeps_advance`, `Chain.keeps_run`: steps and runs.
* `Dispatch.keeps_runEvent`, `Dispatch.keeps_event`: events.
* `Dispatch.keeps_runCommands`: the commands of a message.
-/

namespace ActionChain

variable {α β : Type}

/-- At most the variables, the deliveries, the numbers taken and the notes have
changed. -/
def Bot.Handled (before after : Bot β) : Prop :=
  after = { before with
    vars := after.vars
    deliveries := after.deliveries
    taken := after.taken
    notes := after.notes }

namespace Bot.Handled

theorem refl (bot : Bot β) : bot.Handled bot := rfl

theorem storeJson (bot : Bot β) (scope : Scope) (key : String) (j : Json) :
    bot.Handled (bot.storeJson scope key j).1 := by
  unfold Bot.storeJson
  dsimp only
  split <;> rfl

theorem storeValue (bot : Bot β) (scope : Scope) (key : String) (value : Value) :
    bot.Handled (bot.storeValue scope key value).1 := by
  unfold Bot.storeValue
  split <;> rfl

theorem send (bot : Bot β) (channel : UInt64) (text : String) :
    bot.Handled (bot.send channel text).1 := by
  unfold Bot.send
  dsimp only
  split <;> rfl

theorem note (bot : Bot β) (label : Option String) (n : Note) :
    bot.Handled (bot.note label n) := by
  cases label <;> rfl

theorem increment (p : Shipped.Increment) (bot : Bot β) : bot.Handled (p.apply bot).1 := by
  unfold Shipped.Increment.apply
  split
  · exact .refl bot
  · exact .storeValue bot ..

theorem choice (p : Shipped.Choice) (bot : Bot β) : bot.Handled (p.apply bot).1 := by
  unfold Shipped.Choice.apply
  split
  · exact .refl bot
  · -- The draw is made first, so the store starts from the bot with one number taken.
    unfold Bot.storeValue
    dsimp only [Bot.draw]
    split <;> rfl

end Bot.Handled

/-- A relation that whatever a handler does in one act keeps. -/
class Bot.Admits (R : Bot β → Bot β → Prop) : Prop where
  of_handled {before after : Bot β} : before.Handled after → R before after

namespace Bot.Admits

variable {R : Bot β → Bot β → Prop} [Bot.Admits R]

theorem keeps_read (f : Bot β → α) : (Routine.read f).Keeps R :=
  .read f fun bot => of_handled (.refl bot)

theorem keeps_atomic {f : Bot β → Bot β × α} (h : ∀ bot : Bot β, bot.Handled (f bot).1) :
    (Routine.atomic f).Keeps R :=
  .atomic fun bot => of_handled (h bot)

end Bot.Admits

/-- Behaviours that keep a relation, act by act. -/
class Conduct.Keeps (β : Type) [Conduct β] (R : Bot β → Bot β → Prop) : Prop where
  keeps_onEvent (behaviour : β) (e : PlatformEvent) : (Conduct.onEvent behaviour e).Keeps R
  keeps_handle (behaviour : β) (step : Step) : (Conduct.handle behaviour step).Keeps R

/-! ## Handlers -/

section

variable {R : Bot β → Bot β → Prop} [Bot.Admits R]

open Bot.Admits (keeps_read keeps_atomic)

namespace Builtin

theorem keeps_assign (step : Step) (a : Option Assignment) : (assign step a).Keeps R := by
  cases a with
  | none => exact .pure _
  | some a => exact keeps_atomic fun bot => .storeJson bot ..

theorem keeps_speak (step : Step) (p : Params) : (speak step p).Keeps R := by
  unfold speak
  cases p.message with
  | none => exact .pure _
  | some template =>
      refine (keeps_read _).bind fun text => ?_
      cases p.channel.or step.subject.channelId? with
      | some channel => exact keeps_atomic fun bot => .send bot channel text
      | none => exact .pure _

theorem keeps_handle (step : Step) : (handle step).Keeps R := by
  unfold handle
  cases step.params Params.read? with
  | error e => exact .pure _
  | ok p =>
      refine (keeps_assign step p.set).bind fun result => ?_
      cases result with
      | error e => exact .pure _
      | ok u =>
          refine (keeps_speak step p).bind fun result => ?_
          cases result <;> exact .pure _

end Builtin

namespace Shipped

theorem keeps_handle (s : Shipped) (step : Step) : (handle s step).Keeps R := by
  cases s with
  | ifVar =>
      unfold handle
      cases step.params Comparison.read? with
      | error e => exact .pure _
      | ok p => exact (keeps_read _).bind fun _ => .pure _
  | incrementVar =>
      unfold handle
      cases step.params Increment.read? with
      | error e => exact .pure _
      | ok p => exact (keeps_atomic (Bot.Handled.increment p)).bind fun _ => .pure _
  | wait =>
      unfold handle
      cases step.params readPause? with
      | error e => exact .pure _
      | ok ms => exact (Routine.Keeps.pause ms).bind fun _ => .pure _
  | randomPick =>
      unfold handle
      cases step.params Choice.read? with
      | error e => exact .pure _
      | ok p => exact (keeps_atomic (Bot.Handled.choice p)).bind fun _ => .pure _
  | joinLogger => exact .pure _

end Shipped

namespace Script

theorem keeps_note (label : String) (n : Note) : (note label n).Keeps R :=
  .modify fun bot => Bot.Admits.of_handled (.note bot (some label) n)

theorem keeps_onEvent (s : Script) (e : PlatformEvent) : (onEvent s e).Keeps R := by
  cases s with
  | listener label failure =>
      refine (keeps_note label _).bind fun _ => ?_
      cases failure <;> exact .pure _
  | action label name script => exact .pure _

theorem keeps_handle (s : Script) (step : Step) : (handle s step).Keeps R := by
  cases s with
  | listener label failure => exact .pure _
  | action label name script => exact (keeps_note label _).bind fun _ => .pure _

end Script

end

instance {R : Bot Shipped → Bot Shipped → Prop} [Bot.Admits R] : Conduct.Keeps Shipped R :=
  ⟨fun _ _ => .pure _, Shipped.keeps_handle⟩

instance {R : Bot Performer → Bot Performer → Prop} [Bot.Admits R] :
    Conduct.Keeps Performer R where
  keeps_onEvent
    | .shipped _, _ => .pure _
    | .scripted s, e => s.keeps_onEvent e
  keeps_handle
    | .shipped s, step => s.keeps_handle step
    | .scripted s, step => s.keeps_handle step

/-! ## Chains and dispatchers -/

section

variable [Conduct β] {R : Bot β → Bot β → Prop} [Bot.Admits R] [Conduct.Keeps β R]

open Bot.Admits (keeps_read)

namespace Chain

theorem keeps_advance (chain : Chain) (subject : Subject) (index : Nat) (args : List String) :
    (advance chain subject index args).Keeps R := by
  unfold advance
  cases chain.actions[index]? with
  | none => exact .pure _
  | some action =>
      refine (keeps_read _).bind fun handler => ?_
      cases handler with
      | none => exact (Builtin.keeps_handle _).bind fun _ => .pure _
      | some behaviour => exact (Conduct.Keeps.keeps_handle behaviour _).bind fun _ => .pure _

theorem keeps_runFrom (chain : Chain) (subject : Subject) (limit : Nat) :
    ∀ (left index : Nat) (args : List String) (executed : List Nat),
      (runFrom chain subject limit left index args executed).Keeps R := by
  intro left
  induction left with
  | zero =>
      intro index args executed
      unfold runFrom
      split <;> exact .pure _
  | succ left ih =>
      intro index args executed
      unfold runFrom
      split
      · refine (keeps_advance chain subject index args).bind fun outcome => ?_
        rcases outcome with ⟨_ | _ | _, args⟩
        · exact .pure _
        · exact ih _ _ _
        · exact .pure _
      · exact .pure _

theorem keeps_run (chain : Chain) (subject : Subject) (args : List String) (start : Nat) :
    (run chain subject args start).Keeps R :=
  (keeps_read _).bind fun limit => keeps_runFrom chain subject limit limit start args []

end Chain

namespace Dispatch

omit [Bot.Admits R] in
theorem keeps_tell (e : PlatformEvent) (mods : List (BotMod β)) : (tell e mods).Keeps R := by
  induction mods with
  | nil => exact .pure _
  | cons m rest ih =>
      unfold tell
      cases m.listener with
      | some behaviour => exact (Conduct.Keeps.keeps_onEvent behaviour e).bind fun _ => ih
      | none => exact ih

theorem keeps_runAll (subject : Subject) (chains : List Chain) :
    (runAll subject chains).Keeps R := by
  induction chains with
  | nil => exact .pure _
  | cons chain rest ih =>
      unfold runAll
      split
      · exact ih
      · exact (chain.keeps_run subject [] 0).bind fun _ => ih.bind fun _ => .pure _

theorem keeps_runEvent (name : String) (subject : Subject) : (runEvent name subject).Keeps R :=
  (keeps_read _).bind fun chains => keeps_runAll subject chains

theorem keeps_event (e : PlatformEvent) : (event e).Keeps R := by
  have hemit : (emit e).Keeps R := (keeps_read _).bind fun mods => keeps_tell e mods
  refine hemit.bind fun _ => ?_
  cases e.eventName? with
  | some name => exact keeps_runEvent name e.subject
  | none => exact .pure _

theorem keeps_runCommands (m : Message) (args : List String) (commands : List Command) :
    (runCommands m args commands).Keeps R := by
  induction commands with
  | nil => exact .pure _
  | cons c rest ih =>
      unfold runCommands
      split
      · exact ih.bind fun _ => .pure _
      · split
        · exact ih.bind fun _ => .pure _
        · exact (c.chain.keeps_run (.message m) args 0).bind fun _ => ih.bind fun _ => .pure _

end Dispatch

end

end ActionChain
