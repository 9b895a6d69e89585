import ActionChain.Guild.Scheduler

/-!
# Hubs

A bot together with what is shared by those who call for initialization
passes: the flags, and the surroundings in which guilds are found. Two kinds
of surroundings occur. A platform keeps a cache that changes as time goes by.
A rehearsal lays down in advance what each directory answers, call by call.

## Main definitions

* `Hub`: a bot, flags and surroundings.
* `Hub.desk`, `Hub.post`: where the bot and the flags are.
* `Rehearsal`: answers laid down in advance.
* `Hub.rehearse?`: one pass over such answers, alone.
* `Hub.callAll?`: several calls for a pass, each with answers of its own.
-/

namespace ActionChain

variable {β κ : Type}

/-- A bot, the flags of its passes, and the surroundings it finds guilds in. -/
structure Hub (β κ : Type) where
  bot : Bot β
  flags : Flags
  surroundings : κ

namespace Hub

/-- Where the bot is. -/
def desk : Desk (Hub β κ) β := ⟨Hub.bot, fun bot hub => { hub with bot }⟩

/-- Where the flags are. -/
def post : FlagPost (Hub β κ) := ⟨Hub.flags, fun flags hub => { hub with flags }⟩

end Hub

/-- A directory whose answers are laid down in advance. -/
structure Rehearsal where
  answers : List (List GuildStatus)
  /-- How often it was asked. -/
  asked : Nat

namespace Rehearsal

/-- A directory nobody has asked yet. -/
def ofAnswers (answers : List (List GuildStatus)) : Rehearsal := ⟨answers, 0⟩

/-- The answer to the next question. Past the end, the last answer is given
again with every guild available. -/
def answer (r : Rehearsal) : List GuildStatus :=
  match r.answers[r.asked]? with
  | some guilds => guilds
  | none => (r.answers.getLast?.getD []).map fun s => { s with available := true }

/-- The directory after the next question. -/
def next (r : Rehearsal) : Rehearsal := { r with asked := r.asked + 1 }

/-- Asking one of several directories. -/
def ask (i : Nat) : Routine (Hub β (List Rehearsal)) (List GuildStatus) :=
  Routine.atomic fun hub =>
    let r := (hub.surroundings[i]?).getD (ofAnswers [])
    ({ hub with surroundings := hub.surroundings.set i r.next }, r.answer)

end Rehearsal

namespace Hub

variable [Conduct β]

/-- An attempt over the answers of one of several directories. -/
def rehearsedAttempt (i : Nat) : Nat → Routine (Hub β (List Rehearsal)) (Nat ⊕ InitReport) :=
  Pass.attempt desk (Rehearsal.ask i)

/-- One pass over answers laid down in advance, alone. -/
def rehearse? (fuel : Nat) (answers : List (List GuildStatus)) (hub : Hub β (List Rehearsal)) :
    Option (Routine.Finished (Hub β (List Rehearsal)) InitReport) :=
  Pass.alone? desk (Rehearsal.ask 0) fuel 0
    { hub with surroundings := [Rehearsal.ofAnswers answers] }

/-- Calls for a pass that begin together, each with answers of its own, taking
turns until all have returned. -/
def callAll? (fuel : Nat) (answers : List (List (List GuildStatus)))
    (hub : Hub β (List Rehearsal)) :
    Option (Pool (Hub β (List Rehearsal)) (Caller (Hub β (List Rehearsal))) (Option InitReport)) :=
  let hub := { hub with surroundings := answers.map Rehearsal.ofAnswers }
  let callers := (List.range answers.length).map fun i => Caller.start (rehearsedAttempt i)
  (Pool.start hub 0 callers).finish? (Caller.step post) fuel

end Hub

end ActionChain
