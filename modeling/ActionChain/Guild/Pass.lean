import ActionChain.Dispatch.Event
import ActionChain.Guild.Loaded
import ActionChain.Pool

/-!
# Initialization Passes

A pass asks a directory for the guilds, initializes the ones that are new and
available, and asks again after a while as long as some are unavailable. It
ends when none are, or when the settings allow no further attempt.

Asking whether a guild is recorded and recording it are two cuts of the
routine, as are all steps of the chains that run for it, so that two passes
at once can be described. Recording tells whether the guild was new, and only
then do its chains run.

Nothing bounds the number of attempts, so an attempt is a routine and a pass
starts over with the next one. Where a pass works on more than a bot, a
`Desk` says where the bot is.

## Main definitions

* `InitReport`: how a pass ended.
* `Desk`: a bot inside a larger state.
* `Pass.look`: looking over a list of guilds, cut by cut.
* `Pass.attempt`: one attempt.
* `Pass.alone?`: a pass without interference.
-/

namespace ActionChain

variable {σ β : Type}

/-- How a pass ended, and after how many attempts. The count stands for a word
of 32 bits: a pass that makes `2 ^ 32` attempts or more, which only a policy
without a bound allows, is outside the model. -/
inductive InitReport where
  /-- Every guild of the last list is initialized. -/
  | ready (polls : Nat)
  /-- No attempt was left and some guilds were unavailable. -/
  | gaveUp (polls : Nat) (pending : List UInt64)
  deriving DecidableEq

/-- A bot inside a larger state. -/
structure Desk (σ β : Type) where
  get : σ → Bot β
  put : Bot β → σ → σ

namespace Desk

/-- A routine of the bot as a routine of the larger state. -/
def lift {α : Type} (desk : Desk σ β) (r : Routine (Bot β) α) : Routine σ α :=
  r.within desk.get desk.put

/-- A bot is its own desk. -/
def self : Desk (Bot β) β := ⟨id, fun bot _ => bot⟩

end Desk

namespace Pass

/-- Looks over a list of guilds. Others may get a turn between asking whether a
guild is recorded and recording it. -/
def look : List GuildStatus → Routine (Bot β) PollOutcome
  | [] => pure ⟨[], []⟩
  | s :: rest => do
    let known ← Routine.read fun bot => decide (s.id ∈ bot.loadedGuilds)
    -- Between this answer and the recording below another pass may record the guild.
    if known then look rest
    else if !s.available then
      let outcome ← look rest
      pure { outcome with pending := s.id :: outcome.pending }
    else
      let isNew ← Routine.atomic fun bot =>
        let (loadedGuilds, isNew) := LoadedGuilds.mark bot.loadedGuilds s.id
        ({ bot with loadedGuilds }, isNew)
      let outcome ← look rest
      if isNew then pure { outcome with initialized := s.guild :: outcome.initialized }
      else pure outcome

/-- Runs the chains for guilds that became initialized, in order. -/
def greet [Conduct β] : List Guild → Routine (Bot β) Unit
  | [] => pure ()
  | g :: rest => do
    let _ ← Dispatch.runEvent EventName.botInitialization (.guild g)
    greet rest

/-- Whether no attempt is left after a number of them. -/
def exhausted (poll : GuildPoll) (polls : Nat) : Bool :=
  match poll.maxAttempts with
  | some most => most ≤ polls
  | none => false

/-- One attempt after a number of earlier ones: the number to go on with, after
a pause, or a report. -/
def attempt [Conduct β] (desk : Desk σ β) (listing : Routine σ (List GuildStatus))
    (polls : Nat) : Routine σ (Nat ⊕ InitReport) := do
  let guilds ← listing
  let outcome ← desk.lift (look guilds)
  let polls := polls + 1
  -- The chains run before the report, also in the attempt that gives up.
  desk.lift (greet outcome.initialized)
  let policy ← Routine.read fun s => (desk.get s).settings.guildPoll
  if outcome.pending.isEmpty then pure (.inr (.ready polls))
  else if exhausted policy polls then pure (.inr (.gaveUp polls outcome.pending))
  else do
    Routine.pause policy.interval
    pure (.inl polls)

/-- A pass without interference: its report, what it leaves behind and the time
it took; nothing if the fuel, counted in attempts, does not suffice. -/
def alone? [Conduct β] (desk : Desk σ β) (listing : Routine σ (List GuildStatus)) :
    (fuel : Nat) → (polls : Nat) → σ → Option (Routine.Finished σ InitReport)
  | 0, _, _ => none
  | fuel + 1, polls, s =>
    let f := (attempt desk listing polls).alone s
    match f.value with
    | .inr report => some ⟨report, f.state, f.elapsed⟩
    | .inl polls =>
      (alone? desk listing fuel polls f.state).map fun g =>
        { g with elapsed := f.elapsed + g.elapsed }

end Pass

end ActionChain
