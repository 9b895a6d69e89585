import ActionChain.Proofs.Dispatch.Handled
import ActionChain.Proofs.Dispatch.Stages

/-!
# Accounting for Messages

What is left of messages behind their outcome: the spam guard has seen them,
commands were counted for their authors, and files were written.

Chains and mods may do to a bot what they like as long as they spare the
configuration, the user cache, the files and the spam guard (`Bot.Spared`). Then
the stages of a message are all there is to these. A message that no bot wrote
reaches the guard once, whatever it sets off. An author is recorded once for an
invocation that allows them at all, however many commands of the name there are,
what they run and how it ends. And up to the last act, which writes everything,
no file is touched.

Each message therefore adds to the guard's record and to one count what can be
told from the message and the configuration alone, and that adds up over a whole
history of messages, with the counts as high as they go at most
(`Dispatch.message_accounting`).

## Main definitions

* `Bot.Spared`: what chains and mods have to spare.
* `Dispatch.invocation?`, `Dispatch.counts`: the invocation a message makes, and
  whether it is counted for its author.
* `UserCache.countOf`: how many commands were counted for a user.
* `Dispatch.Settled`: what one message leaves.
* `Dispatch.Balanced`: what a history of messages leaves.

## Theorems

* `Dispatch.settled_message`: one message.
* `Dispatch.balanced_history`: a history, by induction on its messages.
* `Dispatch.message_accounting`: the stages of a message and both of these.
-/

namespace ActionChain

variable {β : Type}

/-- Configuration, user cache, files and the spam guard's record are as
before. -/
structure Bot.Spared (before after : Bot β) : Prop where
  settings : after.settings = before.settings
  rules : after.rules = before.rules
  commands : after.commands = before.commands
  users : after.users = before.users
  storage : after.storage = before.storage
  inspected : after.inspected = before.inspected

namespace Bot.Spared

theorem refl (bot : Bot β) : bot.Spared bot := ⟨rfl, rfl, rfl, rfl, rfl, rfl⟩

theorem trans {a b c : Bot β} (hab : a.Spared b) (hbc : b.Spared c) : a.Spared c where
  settings := hbc.settings.trans hab.settings
  rules := hbc.rules.trans hab.rules
  commands := hbc.commands.trans hab.commands
  users := hbc.users.trans hab.users
  storage := hbc.storage.trans hab.storage
  inspected := hbc.inspected.trans hab.inspected

end Bot.Spared

instance : Bot.Admits (Bot.Spared (β := β)) where
  of_handled h := by rw [h]; exact ⟨rfl, rfl, rfl, rfl, rfl, rfl⟩

/-! ## Counts -/

namespace UserCache

/-- The highest count there is. -/
def ceiling : Nat := UInt64.size - 1

/-- How many commands were counted for a user. -/
def countOf (c : UserCache) (id : UInt64) : Nat :=
  ((c.get? id).map fun r => r.commandCount.toNat).getD 0

theorem countOf_le (c : UserCache) (id : UInt64) : c.countOf id ≤ ceiling := by
  unfold countOf ceiling UInt64.size
  cases c.get? id with
  | none => exact Nat.zero_le _
  | some r =>
      have := r.commandCount.toNat_lt
      simp only [Option.map_some, Option.getD_some]
      omega

theorem toNat_countUp (n : UInt64) :
    (UserRecord.countUp n).toNat = min (n.toNat + 1) ceiling := by
  unfold UserRecord.countUp ceiling UInt64.size
  have hlt := n.toNat_lt
  split
  · rename_i h
    rw [h]
    rfl
  · rename_i h
    have hne : n.toNat ≠ 2 ^ 64 - 1 := fun heq => h (UInt64.toNat_inj.1 heq)
    rw [UInt64.toNat_add]
    simp only [UInt64.toNat_one]
    omega

theorem countOf_recordCommand (c : UserCache) (user : User) (time : Instant) (id : UInt64) :
    (c.recordCommand user time).countOf id =
      if user.id = id then min (c.countOf id + 1) ceiling else c.countOf id := by
  unfold countOf recordCommand
  simp only [get?, Dict.get?_insert]
  by_cases h : id = user.id
  · subst h
    simp only [if_pos, Option.map_some, Option.getD_some, toNat_countUp]
    cases c.records.get? user.id <;> rfl
  · rw [if_neg h, if_neg (Ne.symm h)]

end UserCache

namespace Dispatch

/-! ## One message -/

/-- The invocation a message makes, which a bot's message never does. -/
def invocation? (bot : Bot β) (m : Message) : Option Invocation :=
  if m.author.bot then none else Invocation.parse? bot.settings.marker m.content

/-- Whether a message is counted for its author: it invokes a command that
allows it. -/
def counts (bot : Bot β) (m : Message) : Bool :=
  (invocation? bot m).any fun invocation => allowed m.roles (commandsNamed bot invocation.name)

/-- What a message leaves of the parts that chains and mods spare. -/
structure Settled (m : Message) (now : Instant) (before after : Bot β) : Prop where
  settings : after.settings = before.settings
  rules : after.rules = before.rules
  commands : after.commands = before.commands
  /-- The guard has seen the message once, unless a bot wrote it. -/
  inspected : after.inspected =
    before.inspected ++ if m.author.bot then [] else [(m, before.rules)]
  /-- The author is recorded once if the message is counted. -/
  users : after.users =
    if counts before m then before.users.recordCommand m.author now else before.users
  /-- Without an invocation no file is written. -/
  untouched : invocation? before m = none → after.storage = before.storage
  /-- After an invocation the files hold what there is in the end, and had been
  left alone until then. -/
  written : (invocation? before m).isSome → ∃ last : Bot β, after = last.persist ∧
    last.storage = before.storage ∧ last.users = after.users

theorem Settled.countOf {m : Message} {now : Instant} {before after : Bot β}
    (h : Settled m now before after) (id : UInt64) :
    after.users.countOf id = min
      (before.users.countOf id + if m.author.id == id && counts before m then 1 else 0)
      UserCache.ceiling := by
  have hle := before.users.countOf_le id
  rw [h.users]
  by_cases hcounts : counts before m = true
  · rw [if_pos hcounts, UserCache.countOf_recordCommand]
    by_cases hid : m.author.id = id
    · simp [hid, hcounts]
    · simp [hid, hle]
  · rw [if_neg hcounts]
    simp [hcounts, hle]

/-- Whether a message is counted is a matter of the configuration. -/
theorem counts_congr {a b : Bot β} (hsettings : b.settings = a.settings)
    (hcommands : b.commands = a.commands) : counts b = counts a := by
  funext m
  unfold counts invocation? commandsNamed
  rw [hsettings, hcommands]

variable [Conduct β] [Conduct.Keeps β Bot.Spared]

/-- An invocation leaves what its runs left, with the author recorded if allowed
and everything written. -/
theorem exists_obeyed (m : Message) (now : Instant) (invocation : Invocation) (bot : Bot β) :
    ∃ ran : Bot β, bot.Spared ran ∧
      ((obey m now invocation).alone bot).state = Bot.persist
        { ran with users :=
            if allowed m.roles (commandsNamed bot invocation.name) then
              bot.users.recordCommand m.author now
            else bot.users } := by
  have hruns := (Routine.Keeps.mapM (fun c : Command =>
    c.chain.keeps_run (R := Bot.Spared (β := β)) (.message m) invocation.args 0)
    (startable m.roles (commandsNamed bot invocation.name))).alone .refl .trans bot
  refine ⟨_, hruns, ?_⟩
  unfold obey
  rw [Routine.alone_bind, Routine.alone_read]
  simp only
  rw [Routine.alone_bind, ← hruns.users]
  by_cases hallowed : allowed m.roles (commandsNamed bot invocation.name) = true
  · simp only [if_pos hallowed]
    rfl
  · simp only [if_neg hallowed]
    rfl

/-- What a message leaves does not depend on what its chains do. -/
theorem settled_message (m : Message) (now : Instant) (bot : Bot β) :
    Settled m now bot ((message m now).alone bot).state := by
  rw [message_eq]
  by_cases hbot : m.author.bot = true
  · have hnone : invocation? bot m = none := if_pos hbot
    rw [if_pos hbot]
    exact ⟨rfl, rfl, rfl, by simp [hbot], by simp [counts, hnone], fun _ => rfl,
      fun h => by simp [hnone] at h⟩
  · have hinvocation : invocation? bot m = Invocation.parse? bot.settings.marker m.content :=
      if_neg hbot
    have hevent := (keeps_runEvent (R := Bot.Spared (β := β)) EventName.anyMessage
      (.message m)).alone .refl .trans bot
    rw [if_neg hbot]
    simp only [Routine.alone_bind, Routine.alone_modify, Routine.alone_read]
    generalize ((runEvent EventName.anyMessage (.message m)).alone bot).state = fired at hevent ⊢
    -- The event spared the configuration, so the guard and the commands see that of the start.
    have hmarker : (fired.inspect m).settings.marker = bot.settings.marker :=
      congrArg Settings.marker hevent.settings
    have hinspected : (fired.inspect m).inspected =
        bot.inspected ++ if m.author.bot then [] else [(m, bot.rules)] := by
      rw [if_neg hbot, ← hevent.inspected, ← hevent.rules]
      rfl
    rw [hmarker, ← hinvocation]
    cases hmade : invocation? bot m with
    | none =>
        have hcounts : counts bot m = false := by simp [counts, hmade]
        refine ⟨hevent.settings, hevent.rules, hevent.commands, hinspected, ?_,
          fun _ => hevent.storage, fun h => by simp [hmade] at h⟩
        simp only [hcounts]
        exact hevent.users
    | some invocation =>
        rcases exists_obeyed m now invocation (fired.inspect m) with ⟨ran, hran, hstate⟩
        have hnamed : commandsNamed (fired.inspect m) invocation.name =
            commandsNamed bot invocation.name := by
          unfold commandsNamed
          rw [← hevent.commands]
          rfl
        have hcounts : allowed m.roles (commandsNamed bot invocation.name) = counts bot m := by
          simp [counts, hmade]
        rw [hnamed, hcounts] at hstate
        simp only [hstate]
        refine ⟨hran.settings.trans hevent.settings, hran.rules.trans hevent.rules,
          hran.commands.trans hevent.commands, hran.inspected.trans hinspected, ?_,
          fun h => by simp [hmade] at h,
          fun _ => ⟨_, rfl, hran.storage.trans hevent.storage, rfl⟩⟩
        rw [← hevent.users]
        rfl

/-! ## A history -/

/-- Deals with messages one after the other, each at its time. -/
def history (messages : List (Message × Instant)) : Routine (Bot β) (List MessageOutcome) :=
  messages.mapM fun entry => message entry.1 entry.2

omit [Conduct.Keeps β Bot.Spared] in
theorem alone_history_cons (m : Message) (now : Instant) (rest : List (Message × Instant))
    (bot : Bot β) :
    ((history ((m, now) :: rest)).alone bot).state =
      ((history rest).alone ((message m now).alone bot).state).state := by
  unfold history
  rw [List.mapM_cons, Routine.alone_bind]
  simp only [Routine.alone_bind, Routine.alone_pure]

/-- What a history of messages leaves of the parts that chains and mods
spare. -/
structure Balanced (messages : List (Message × Instant)) (before after : Bot β) : Prop where
  settings : after.settings = before.settings
  rules : after.rules = before.rules
  commands : after.commands = before.commands
  /-- The guard has seen every message that no bot wrote once, in their order. -/
  inspected : after.inspected = before.inspected ++
    (messages.filter fun entry => !entry.1.author.bot).map fun entry => (entry.1, before.rules)
  /-- Every user's count has gone up by the messages that are counted for them,
  unless it is as high as it goes. -/
  counted (id : UInt64) : after.users.countOf id = min
    (before.users.countOf id +
      messages.countP fun entry => entry.1.author.id == id && counts before entry.1)
    UserCache.ceiling

theorem balanced_history (messages : List (Message × Instant)) (bot : Bot β) :
    Balanced messages bot ((history messages).alone bot).state := by
  induction messages generalizing bot with
  | nil =>
      refine ⟨rfl, rfl, rfl, (List.append_nil _).symm, fun id => ?_⟩
      exact (Nat.min_eq_left (bot.users.countOf_le id)).symm
  | cons entry rest ih =>
      rcases entry with ⟨m, now⟩
      rw [alone_history_cons]
      have hfirst := settled_message m now bot
      generalize ((message m now).alone bot).state = middle at hfirst ⊢
      have hrest := ih middle
      have hcounts := counts_congr hfirst.settings hfirst.commands
      refine ⟨hrest.settings.trans hfirst.settings, hrest.rules.trans hfirst.rules,
        hrest.commands.trans hfirst.commands, ?_, fun id => ?_⟩
      · rw [hrest.inspected, hfirst.inspected, hfirst.rules, List.append_assoc]
        by_cases hbot : m.author.bot = true <;> simp [hbot]
      · rw [hrest.counted, hfirst.countOf, hcounts, List.countP_cons]
        simp only
        omega

/-- Messages are dealt with in stages, none of which is entered twice, and what
they leave is accounted for.

A bot's message is passed over without a single act. Any other message first
sets off the event for any message and then reaches the spam guard. Without an
invocation that is all. With one, the commands of that very name that allow the
author and have something to run are run in the order of the configuration, each
from its first action with the arguments as they were typed; the runs that
completed are reported with the number of refused commands; the author is
recorded if allowed at all; and then everything is written. No other act touches
the configuration, the user cache, the files or the guard's record. So every
single message settles as it should, and so does every history of messages. -/
theorem message_accounting :
    (∀ (m : Message) (now : Instant), message (β := β) m now =
      if m.author.bot then pure .ignoredBot
      else (do
        let _ ← runEvent EventName.anyMessage (.message m)
        Routine.modify fun bot => bot.inspect m
        let marker ← Routine.read fun bot => bot.settings.marker
        match Invocation.parse? marker m.content with
        | none => pure .chatter
        | some invocation => obey m now invocation)) ∧
    (∀ (name : String) (subject : Subject),
      (runEvent (β := β) name subject).Keeps Bot.Spared) ∧
    (∀ (chain : Chain) (subject : Subject) (args : List String) (start : Nat),
      (chain.run (β := β) subject args start).Keeps Bot.Spared) ∧
    (∀ (m : Message) (now : Instant) (bot : Bot β),
      Settled m now bot ((message m now).alone bot).state) ∧
    ∀ (messages : List (Message × Instant)) (bot : Bot β),
      Balanced messages bot ((history messages).alone bot).state :=
  ⟨message_eq, keeps_runEvent, Chain.keeps_run, settled_message, balanced_history⟩

/-- A bot on which two commands of one name are open to everybody. -/
def frank : Bot Performer :=
  .load ⟨.standard, .null, [⟨⟨"hi", []⟩, []⟩, ⟨⟨"hi", [⟨none, []⟩]⟩, []⟩], []⟩ .empty
    (fun _ _ _ => none) id

/-- A greeting that invokes both. -/
def greeting : Message := ⟨none, 10, ⟨1, "guest", false⟩, "!hi there", []⟩

/-- It comes in the morning and in the evening of a day. -/
def greetings : List (Message × Instant) :=
  [(greeting, ⟨⟨2024, 2, 29, by decide⟩, 28800, 0, by decide⟩),
    (greeting, ⟨⟨2024, 2, 29, by decide⟩, 72000, 0, by decide⟩)]

theorem message_accounting_frank :
    Balanced greetings frank ((history greetings).alone frank).state ∧
    ((history greetings).alone frank).state.users.countOf 1 = 2 := by
  have hbalanced := message_accounting.2.2.2.2 greetings frank
  refine ⟨hbalanced, ?_⟩
  rw [hbalanced.counted]
  decide

end Dispatch

end ActionChain
