import ActionChain.Dispatch.Command
import ActionChain.Proofs.Chain.Compaction
import ActionChain.Proofs.Variables.Safety

/-!
# What a Bot Can Come To

The bots that messages and events lead to, with any number of calls under way
at once.

A bot starts with what its files hold and the shipped mods. A message or an
event adds a call, and from then on any call may go on to its next cut at any
time. Nothing is said about who waits for how long, so every order in which a
clock would let the calls take turns is among those considered, and calls that
never overlap are the special case of finishing each before the next begins
(`Bot.Reached.finish`).

What holds along every such history is found one call at a time. Dispatching
is blind, because the steps of chains are and because writing keeps bots
alike. A call that is blind keeps references inside, and so does what is left
of it after a cut; a bot is like itself exactly if its references are inside.

## Main definitions

* `Bot.start`: a bot with the shipped mods.
* `Bot.Reached`: a bot and the calls under way.

## Theorems

* `Dispatch.respects_event`, `Dispatch.respects_message`: dispatching is blind.
* `Bot.Reached.wellFormed`: every reference stays inside.
-/

namespace ActionChain

variable {α β : Type}

/-- Persisting leaves the same files and keeps bots alike. -/
theorem Bot.Alike.persist {a b : Bot β} (hab : a.Alike b) : a.persist.Alike b.persist := by
  have husers := hab.frame
    (fun bot => { bot with storage := (bot.storage.flushUsers bot.users).1 }) fun _ _ => rfl
  have hfiles := husers.flushVariables_eq
  have hvars := hab.compacted_left.compacted_right.vars
  rcases hab.elim with ⟨vars, rfl, -⟩
  simp only at hfiles
  refine ⟨?_, hvars⟩
  simp only [Bot.persist, hfiles]

/-! ## Dispatching is blind -/

section

variable [Conduct β] [Conduct.Blind β]

theorem Chain.respects_run (chain : Chain) (subject : Subject) (args : List String) (start : Nat) :
    Routine.Respects (Bot.Alike (β := β)) ChainError.Agree (chain.run subject args start)
      (chain.run subject args start) := by
  rw [← report_outcome]
  exact (respects_report chain subject args start).map fun _ _ h => h.outcome

namespace Dispatch

theorem respects_tell (e : PlatformEvent) (mods : List (BotMod β)) :
    Routine.Respects (Bot.Alike (β := β)) Eq (tell e mods) (tell e mods) := by
  induction mods with
  | nil => exact .pure rfl
  | cons m rest ih =>
      unfold tell
      cases m.listener with
      | some behaviour => exact (Conduct.Blind.respects_onEvent behaviour e).bind fun _ _ _ => ih
      | none => exact ih

theorem respects_emit (e : PlatformEvent) :
    Routine.Respects (Bot.Alike (β := β)) Eq (emit e) (emit e) := by
  refine (Bot.Alike.respects_read _ fun _ _ => rfl).bind fun mods mods' hsame => ?_
  subst hsame
  exact respects_tell e mods

theorem respects_runAll (subject : Subject) (chains : List Chain) :
    Routine.Respects (Bot.Alike (β := β)) Eq (runAll subject chains) (runAll subject chains) := by
  induction chains with
  | nil => exact .pure rfl
  | cons chain rest ih =>
      unfold runAll
      by_cases hempty : chain.actions.isEmpty = true
      · rw [if_pos hempty]
        exact ih
      · rw [if_neg hempty]
        refine (Chain.respects_run chain subject [] 0).bind fun x y hxy => ?_
        refine ih.bind fun n n' hsame => ?_
        subst hsame
        -- Only whether the run completed is counted, and agreeing outcomes both did or did not.
        cases hxy with
        | ok trace => exact .pure rfl
        | error h => exact .pure rfl

theorem respects_runEvent (name : String) (subject : Subject) :
    Routine.Respects (Bot.Alike (β := β)) Eq (runEvent name subject) (runEvent name subject) := by
  refine (Bot.Alike.respects_read _ fun _ _ => rfl).bind fun chains chains' hsame => ?_
  subst hsame
  exact respects_runAll subject chains

/-- Dealing with an event is blind. -/
theorem respects_event (e : PlatformEvent) :
    Routine.Respects (Bot.Alike (β := β)) Eq (event e) (event e) := by
  refine (respects_emit e).bind fun _ _ _ => ?_
  cases e.eventName? with
  | some name => exact respects_runEvent name e.subject
  | none => exact .pure rfl

theorem respects_runCommands (m : Message) (args : List String) (commands : List Command) :
    Routine.Respects (Bot.Alike (β := β)) Eq (runCommands m args commands)
      (runCommands m args commands) := by
  induction commands with
  | nil => exact .pure rfl
  | cons c rest ih =>
      unfold runCommands
      by_cases hdenied : (!authorize c m.roles) = true
      · rw [if_pos hdenied]
        refine ih.bind fun tally tally' hsame => ?_
        subst hsame
        exact .pure rfl
      · rw [if_neg hdenied]
        by_cases hempty : c.chain.actions.isEmpty = true
        · rw [if_pos hempty]
          refine ih.bind fun tally tally' hsame => ?_
          subst hsame
          exact .pure rfl
        · rw [if_neg hempty]
          refine (Chain.respects_run c.chain (.message m) args 0).bind fun x y hxy => ?_
          refine ih.bind fun tally tally' hsame => ?_
          subst hsame
          cases hxy with
          | ok trace => exact .pure rfl
          | error h => exact .pure rfl

/-- Dealing with a message is blind. -/
theorem respects_message (m : Message) (now : Instant) :
    Routine.Respects (Bot.Alike (β := β)) Eq (message m now) (message m now) := by
  unfold message
  by_cases hbot : m.author.bot = true
  · rw [if_pos hbot]
    exact .pure rfl
  · rw [if_neg hbot]
    refine (respects_runEvent EventName.anyMessage (.message m)).bind fun _ _ _ => ?_
    have hinspect : Routine.Respects (Bot.Alike (β := β)) Eq
        (Routine.modify fun bot => bot.inspect m) (Routine.modify fun bot => bot.inspect m) :=
      .modify fun _ _ hst => hst.frame (fun bot => bot.inspect m) fun _ _ => rfl
    refine hinspect.bind fun _ _ _ => ?_
    refine (Bot.Alike.respects_read _ fun _ _ => rfl).bind fun marker marker' hsame => ?_
    subst hsame
    cases Invocation.parse? marker m.content with
    | none => exact .pure rfl
    | some invocation =>
        refine (Bot.Alike.respects_read _ fun _ _ => rfl).bind fun commands commands' hsame => ?_
        subst hsame
        refine (respects_runCommands m invocation.args commands).bind fun tally tally' hsame => ?_
        subst hsame
        let record (bot : Bot β) : Bot β :=
          { bot with users := bot.users.recordCommand m.author now }
        have hrecord : Routine.Respects (Bot.Alike (β := β)) Eq (Routine.modify record)
            (Routine.modify record) :=
          .modify fun _ _ hst => hst.frame record fun _ _ => rfl
        have hpersist : Routine.Respects (Bot.Alike (β := β)) Eq
            (Routine.modify Bot.persist) (Routine.modify Bot.persist) :=
          .modify fun _ _ hst => hst.persist
        by_cases hauthorized : tally.authorized = true
        · simp only [if_pos hauthorized]
          exact hrecord.bind fun _ _ _ => hpersist.bind fun _ _ _ => .pure rfl
        · simp only [if_neg hauthorized]
          exact hpersist.bind fun _ _ _ => .pure rfl

end Dispatch

end

/-! ## Starting -/

namespace Bot

mutual

/-- Registering a mod leaves the variables alone. -/
theorem vars_register : ∀ (m : BotMod β) (bot : Bot β), (register m bot).1.vars = bot.vars
  | ⟨name, label, companions, failure, listener, action⟩, bot => by
      have hnoted : (bot.note label .started).vars = bot.vars := by
        cases label with
        | none => rfl
        | some label => rfl
      have hcompanions := vars_registerCompanions label companions (bot.note label .started)
      rw [register]
      split
      · rfl
      · cases failure with
        | some reason => exact hcompanions.trans hnoted
        | none => exact hcompanions.trans hnoted

theorem vars_registerCompanions (label : Option String) : ∀ (mods : List (BotMod β)) (bot : Bot β),
    (registerCompanions label mods bot).vars = bot.vars
  | [], bot => rfl
  | m :: rest, bot => by
      rw [registerCompanions]
      -- Between two companions there is only a note.
      refine (vars_registerCompanions label rest _).trans ?_
      have hmod := vars_register m bot
      cases label with
      | none => exact hmod
      | some label => exact hmod

end

theorem vars_registerAll (mods : List (BotMod β)) (bot : Bot β) :
    (registerAll mods bot).1.vars = bot.vars := by
  induction mods generalizing bot with
  | nil => rfl
  | cons m rest ih =>
      rw [registerAll]
      exact (ih _).trans (vars_register m bot)

/-- A bot with what its files hold and the shipped mods. -/
def start (c : Config) (s : Storage) (gateway : Gateway) (chance : Nat → Nat) : Bot Shipped :=
  (registerAll (Shipped.manifest id) (load c s gateway chance)).1

theorem wellFormed_start (c : Config) (s : Storage) (gateway : Gateway) (chance : Nat → Nat) :
    (start c s gateway chance).vars.WellFormed := by
  rw [start, vars_registerAll]
  exact ⟨(s.built_loadScope .server).wellFormed, (s.built_loadScope .global).wellFormed⟩

/-! ## Histories -/

/-- What is left of a call whose result nobody looks at. -/
abbrev Pending := Routine (Bot Shipped) Unit

/-- A routine as a call that is about to begin. -/
def pending (r : Routine (Bot Shipped) α) : Pending := (fun _ => ()) <$> r

/-- The bots that messages and events lead to, with what is left of the calls
that deal with them. -/
inductive Reached : Bot Shipped → List Pending → Prop where
  | start (c : Config) (s : Storage) (gateway : Gateway) (chance : Nat → Nat) :
      Reached (start c s gateway chance) []
  | message {bot : Bot Shipped} {calls : List Pending} (h : Reached bot calls) (m : Message)
      (now : Instant) : Reached bot (pending (Dispatch.message m now) :: calls)
  | event {bot : Bot Shipped} {calls : List Pending} (h : Reached bot calls) (e : PlatformEvent) :
      Reached bot (pending (Dispatch.event e) :: calls)
  /-- One of the calls goes on to its next cut. -/
  | act {bot : Bot Shipped} (before after : List Pending) {change : Bot Shipped → Bot Shipped}
      {next : Bot Shipped → Pending} (h : Reached bot (before ++ .act change next :: after)) :
      Reached (change bot) (before ++ next bot :: after)
  | sleep {bot : Bot Shipped} (before after : List Pending) {ms : Nat} {next : Pending}
      (h : Reached bot (before ++ .sleep ms next :: after)) : Reached bot (before ++ next :: after)
  | done {bot : Bot Shipped} (before after : List Pending)
      (h : Reached bot (before ++ .done () :: after)) : Reached bot (before ++ after)

/-- A call that is blind. -/
def Blind (r : Pending) : Prop := Routine.Respects Bot.Alike Eq r r

namespace Reached

variable {bot : Bot Shipped} {calls : List Pending}

theorem forall_mem_middle {P : Pending → Prop} {before after : List Pending} {r : Pending} :
    (∀ s ∈ before ++ r :: after, P s) ↔
      (∀ s ∈ before, P s) ∧ P r ∧ ∀ s ∈ after, P s := by
  rw [List.forall_mem_append, List.forall_mem_cons]

/-- Every reference stays inside, and the calls under way stay blind. -/
theorem invariant (h : Reached bot calls) : bot.vars.WellFormed ∧ ∀ r ∈ calls, Blind r := by
  -- By induction on the history; only an act can change the variables.
  induction h with
  | start c s gateway chance => exact ⟨wellFormed_start c s gateway chance, by simp⟩
  | message _ m now ih =>
      have hblind : Blind (pending (Dispatch.message m now)) :=
        (Dispatch.respects_message m now).map fun _ _ _ => rfl
      exact ⟨ih.1, List.forall_mem_cons.2 ⟨hblind, ih.2⟩⟩
  | event _ e ih =>
      have hblind : Blind (pending (Dispatch.event e)) :=
        (Dispatch.respects_event e).map fun _ _ _ => rfl
      exact ⟨ih.1, List.forall_mem_cons.2 ⟨hblind, ih.2⟩⟩
  | @act bot before after change next _ ih =>
      rcases ih with ⟨hvars, hblind⟩
      rcases forall_mem_middle.1 hblind with ⟨hbefore, hcall, hafter⟩
      -- The bot is like itself, so the act leads to a bot that is like itself.
      have hself := Alike.refl_iff.2 hvars
      cases hcall with
      | act hchange hnext =>
          refine ⟨Alike.refl_iff.1 (hchange bot bot hself), ?_⟩
          exact forall_mem_middle.2 ⟨hbefore, hnext bot bot hself, hafter⟩
  | sleep before after _ ih =>
      rcases ih with ⟨hvars, hblind⟩
      rcases forall_mem_middle.1 hblind with ⟨hbefore, hcall, hafter⟩
      cases hcall with
      | sleep hnext => exact ⟨hvars, forall_mem_middle.2 ⟨hbefore, hnext, hafter⟩⟩
  | done before after _ ih =>
      rcases ih with ⟨hvars, hblind⟩
      rcases forall_mem_middle.1 hblind with ⟨hbefore, -, hafter⟩
      exact ⟨hvars, List.forall_mem_append.2 ⟨hbefore, hafter⟩⟩

theorem wellFormed (h : Reached bot calls) : bot.vars.WellFormed := h.invariant.1

/-- A call that runs to its end without the others. -/
theorem finish {r : Pending} (h : Reached bot (r :: calls)) :
    Reached (r.alone bot).state calls := by
  induction r generalizing bot with
  | done a => exact h.done [] calls
  | act change next ih => exact ih bot (h.act [] calls)
  | sleep ms next ih => exact ih (h.sleep [] calls)

end Reached

end Bot

end ActionChain
