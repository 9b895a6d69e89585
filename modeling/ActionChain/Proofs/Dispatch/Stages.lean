import ActionChain.Dispatch.Command

/-!
# The Stages of a Message

The loop over the commands of a name does several things at once. It asks who
is allowed, passes over what has nothing to run, runs the rest and keeps three
counts. Taken apart, only one of them is work on the bot: the commands that are
allowed and have something to run are run in their order, each from its first
action and with the arguments as they were typed. What is counted is a function
of the results and of the configuration (`Dispatch.runCommands_eq`).

With that, dealing with a message is a sequence of stages, none of which is
entered twice (`Dispatch.message_eq`). The equation is between routines, so it
holds wherever they are cut and whoever gets a turn in between.

## Main definitions

* `Dispatch.startable`: the commands that are run.
* `Dispatch.refused`, `Dispatch.allowed`: how many are not allowed, and whether
  any is.
* `Dispatch.obey`: what an invocation comes to.

## Theorems

* `Dispatch.runCommands_eq`: the loop taken apart.
* `Dispatch.message_eq`: the stages of a message.
-/

namespace ActionChain.Dispatch

variable {β : Type} [Conduct β]

/-- The commands that somebody with some roles sets off: they allow it and have
something to run. -/
def startable (roles : List String) (commands : List Command) : List Command :=
  commands.filter fun c => authorize c roles && !c.chain.actions.isEmpty

/-- How many commands do not allow somebody with some roles to run them. -/
def refused (roles : List String) (commands : List Command) : Nat :=
  commands.countP fun c => !authorize c roles

/-- Whether a command allows somebody with some roles to run it. -/
def allowed (roles : List String) (commands : List Command) : Bool :=
  commands.any fun c => authorize c roles

/-- What came of commands, from the results of the runs. -/
def tallyOf (roles : List String) (commands : List Command)
    (results : List (Except ChainError Trace)) : Tally :=
  ⟨results.filterMap Except.toOption, refused roles commands, allowed roles commands⟩

theorem tallyOf_cons (roles : List String) (c : Command) (rest : List Command) :
    tallyOf roles (c :: rest) = fun results =>
      let tally := tallyOf roles rest results
      if authorize c roles then { tally with authorized := true }
      else { tally with denied := tally.denied + 1 } := by
  funext results
  by_cases hallowed : authorize c roles = true <;> simp [tallyOf, refused, allowed, hallowed]

/-- The loop over the commands runs those that are allowed and have something to
run; the rest is counting. -/
theorem runCommands_eq (m : Message) (args : List String) (commands : List Command) :
    runCommands (β := β) m args commands =
      tallyOf m.roles commands <$>
        (startable m.roles commands).mapM fun c => c.chain.run (.message m) args 0 := by
  induction commands with
  | nil => rfl
  | cons c rest ih =>
      unfold runCommands
      rw [ih, tallyOf_cons]
      by_cases hallowed : authorize c m.roles = true
      · by_cases hempty : c.chain.actions.isEmpty = true
        · have hstart : startable m.roles (c :: rest) = startable m.roles rest := by
            simp [startable, hempty]
          simp [hstart, hallowed, hempty]
        · have hstart : startable m.roles (c :: rest) = c :: startable m.roles rest := by
            simp [startable, hallowed, hempty]
          rw [hstart, List.mapM_cons, if_neg (by simp [hallowed]), if_neg hempty, map_bind]
          -- The run comes first on both sides; it is reported if it completed.
          refine congrArg _ (funext fun result => ?_)
          cases result <;> simp [tallyOf, hallowed, List.filterMap_cons, Except.toOption]
      · have hstart : startable m.roles (c :: rest) = startable m.roles rest := by
          simp [startable, hallowed]
        simp [hstart, hallowed]

/-- What an invocation comes to: the runs it starts, in order and each with the
arguments as they were typed, then the recording, then the writing. -/
def obey (m : Message) (now : Instant) (invocation : Invocation) :
    Routine (Bot β) MessageOutcome := do
  let commands ← Routine.read fun bot => commandsNamed bot invocation.name
  let results ← (startable m.roles commands).mapM fun c =>
    c.chain.run (.message m) invocation.args 0
  if allowed m.roles commands then
    Routine.modify fun bot => { bot with users := bot.users.recordCommand m.author now }
  Routine.modify Bot.persist
  pure (.command invocation.name (results.filterMap Except.toOption) (refused m.roles commands))

/-- A message that no bot wrote goes through the event for any message, past the
spam guard and, if it is an invocation, through the commands of its name. With a
bot's message nothing is done at all. -/
theorem message_eq (m : Message) (now : Instant) :
    message (β := β) m now =
      if m.author.bot then pure .ignoredBot
      else (do
        let _ ← runEvent EventName.anyMessage (.message m)
        Routine.modify fun bot => bot.inspect m
        let marker ← Routine.read fun bot => bot.settings.marker
        match Invocation.parse? marker m.content with
        | none => pure .chatter
        | some invocation => obey m now invocation) := by
  unfold message obey
  simp only [runCommands_eq, bind_map_left]
  rfl

end ActionChain.Dispatch
