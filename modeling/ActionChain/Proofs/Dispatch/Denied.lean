import ActionChain.Proofs.Chain.Aloof
import ActionChain.Proofs.Dispatch.Stages
import Mathlib.Data.List.Forall2

/-!
# Denied Commands

A command that the author of a message is not allowed to run has no influence
on what comes of the message, other than being counted.

This is a statement about two runs. The two bots differ in their commands and
in nothing else, and they are kept that way: what is dealt with before the
commands are looked at has nothing to do with commands, and of the commands
themselves only those that allow the author are ever run or recorded for. So
the same acts follow one another on both sides, wherever a denied command
stands and whatever it would have done. Equal acts from equal states means that
everything is equal in the end: outcome, messages, variables, user cache, files
and the time it took.

## Main definitions

* `Bot.Recast`: two bots that differ in their commands.
* `Command.Twin`: commands that differ in what a denied author does not run.
* `MessageOutcome.recount`: an outcome with another count of denied commands.

## Theorems

* `Dispatch.respects_obey_recast`, `Dispatch.respects_message_recast`: commands
  of which the same are allowed do the same.
* `Dispatch.message_of_denied`: denied commands have no influence.
-/

namespace ActionChain

variable {β : Type} {old new : List Command}

/-- The same bot once with the old and once with the new commands. -/
structure Bot.Recast (old new : List Command) (a b : Bot β) : Prop where
  before : a.commands = old
  after : b = { a with commands := new }

instance : Bot.Aloof (Bot.Recast (β := β) old new) where
  level := by rintro a _ ⟨-, rfl⟩; exact ⟨rfl, rfl, rfl, rfl, rfl, rfl, rfl⟩
  vars := by rintro a _ vars ⟨rfl, rfl⟩; exact ⟨rfl, rfl⟩
  deliveries := by rintro a _ deliveries ⟨rfl, rfl⟩; exact ⟨rfl, rfl⟩
  taken := by rintro a _ taken ⟨rfl, rfl⟩; exact ⟨rfl, rfl⟩
  notes := by rintro a _ notes ⟨rfl, rfl⟩; exact ⟨rfl, rfl⟩

/-- Commands of one name for the same roles. What they do may differ if somebody
with some roles may not run them. -/
structure Command.Twin (roles : List String) (c c' : Command) : Prop where
  name : c'.chain.name = c.chain.name
  perms : c'.perms = c.perms
  actions : authorize c roles = true → c'.chain.actions = c.chain.actions

/-- An outcome in which the denied commands of a name are counted otherwise. -/
def MessageOutcome.recount (count : String → Nat) : MessageOutcome → MessageOutcome
  | .command name runs _ => .command name runs (count name)
  | outcome => outcome

namespace Dispatch

/-- How many commands of a name do not allow somebody with some roles. -/
def refusals (roles : List String) (commands : List Command) (name : String) : Nat :=
  refused roles (commands.filter fun c => c.chain.name == name)

/-! ## What commands have in common -/

section

variable {roles : List String}

theorem startable_named_eq
    (h : new.filter (authorize · roles) = old.filter (authorize · roles)) (name : String) :
    startable roles (new.filter fun c => c.chain.name == name) =
      startable roles (old.filter fun c => c.chain.name == name) := by
  have hswap (commands : List Command) :
      startable roles (commands.filter fun c => c.chain.name == name) =
        (commands.filter (authorize · roles)).filter fun c =>
          c.chain.name == name && !c.chain.actions.isEmpty := by
    unfold startable
    rw [List.filter_filter, List.filter_filter]
    refine List.filter_congr fun c _ => ?_
    cases authorize c roles <;> simp [Bool.and_comm]
  rw [hswap new, hswap old, h]

theorem allowed_named_eq
    (h : new.filter (authorize · roles) = old.filter (authorize · roles)) (name : String) :
    allowed roles (new.filter fun c => c.chain.name == name) =
      allowed roles (old.filter fun c => c.chain.name == name) := by
  have hswap (commands : List Command) :
      allowed roles (commands.filter fun c => c.chain.name == name) =
        (commands.filter (authorize · roles)).any fun c => c.chain.name == name := by
    simp only [allowed, List.any_filter, Bool.and_comm]
  rw [hswap new, hswap old, h]

end

end Dispatch

namespace Command.Twin

variable {roles : List String}

theorem authorize_eq {c c' : Command} (h : Command.Twin roles c c') :
    authorize c' roles = authorize c roles := by
  unfold authorize
  rw [h.perms]

theorem eq_of_authorize {c c' : Command} (h : Command.Twin roles c c')
    (hallowed : authorize c roles = true) : c' = c := by
  rcases c with ⟨⟨name, actions⟩, perms⟩
  rcases c' with ⟨⟨name', actions'⟩, perms'⟩
  obtain rfl : name' = name := h.name
  obtain rfl : perms' = perms := h.perms
  obtain rfl : actions' = actions := h.actions hallowed
  rfl

theorem filter_eq (h : List.Forall₂ (Command.Twin roles) old new) :
    new.filter (authorize · roles) = old.filter (authorize · roles) := by
  induction h with
  | nil => rfl
  | @cons c c' rest rest' htwin _ ih =>
      by_cases hallowed : authorize c roles = true
      · rw [htwin.eq_of_authorize hallowed]
        simp only [List.filter_cons, hallowed, ih]
      · have hdenied : ¬ authorize c' roles = true := by rwa [htwin.authorize_eq]
        simp only [List.filter_cons, hallowed, hdenied, ih]
        rfl

theorem refusals_eq (h : List.Forall₂ (Command.Twin roles) old new) (name : String) :
    Dispatch.refusals roles new name = Dispatch.refusals roles old name := by
  unfold Dispatch.refusals Dispatch.refused
  rw [List.countP_filter, List.countP_filter]
  induction h with
  | nil => rfl
  | cons htwin _ ih => rw [List.countP_cons, List.countP_cons, ih, htwin.authorize_eq, htwin.name]

end Command.Twin

/-! ## Two runs -/

namespace Dispatch

variable [Conduct β] [Conduct.Disregards β (Bot.Recast old new)]

open ActionChain.Bot (Recast)

omit [Conduct.Disregards β (Recast old new)] [Conduct β] in
theorem respects_read_recast {α : Type} {f : Bot β → α}
    (hf : ∀ bot commands, f { bot with commands := commands } = f bot) :
    Routine.Respects (Recast old new) Eq (Routine.read f) (Routine.read f) :=
  .read fun a b hab => by
    rw [hab.after]
    exact (hf a new).symm

omit [Conduct.Disregards β (Recast old new)] [Conduct β] in
theorem respects_modify_recast {f : Bot β → Bot β}
    (hf : ∀ bot commands, (f bot).commands = bot.commands ∧
      f { bot with commands := commands } = { f bot with commands := commands }) :
    Routine.Respects (Recast old new) Eq (Routine.modify f) (Routine.modify f) :=
  .modify fun a b hab => by
    rcases hab with ⟨rfl, rfl⟩
    exact ⟨(hf a new).1, (hf a new).2⟩

theorem respects_run_recast (chain : Chain) (subject : Subject) (args : List String)
    (start : Nat) :
    Routine.Respects (Recast (β := β) old new) Eq (chain.run subject args start)
      (chain.run subject args start) := by
  refine (respects_read_recast fun _ _ => rfl).bind ?_
  rintro limit _ rfl
  exact Bot.Aloof.respects_runFrom chain subject limit limit start args []

theorem respects_runAll_recast (subject : Subject) (chains : List Chain) :
    Routine.Respects (Recast (β := β) old new) Eq (runAll subject chains)
      (runAll subject chains) := by
  induction chains with
  | nil => exact .pure rfl
  | cons chain rest ih =>
      unfold runAll
      split
      · exact ih
      · refine (respects_run_recast chain subject [] 0).bind ?_
        rintro result _ rfl
        refine ih.bind ?_
        rintro completed _ rfl
        exact .pure rfl

theorem respects_runEvent_recast (name : String) (subject : Subject) :
    Routine.Respects (Recast (β := β) old new) Eq (runEvent name subject)
      (runEvent name subject) := by
  refine (respects_read_recast fun _ _ => rfl).bind ?_
  rintro chains _ rfl
  exact respects_runAll_recast subject chains

/-- Commands of which the same allow the author do the same for an invocation.
Only the counts differ, and each is the count of its own commands. -/
theorem respects_obey_recast {m : Message}
    (h : new.filter (authorize · m.roles) = old.filter (authorize · m.roles)) (now : Instant)
    (invocation : Invocation) :
    Routine.Respects (Recast (β := β) old new)
      (fun x y => x.recount (refusals m.roles old) = x ∧ x.recount (refusals m.roles new) = y)
      (obey m now invocation) (obey m now invocation) := by
  have hnamed : Routine.Respects (Recast (β := β) old new)
      (fun x y => x = old.filter (fun c => c.chain.name == invocation.name) ∧
        y = new.filter fun c => c.chain.name == invocation.name)
      (Routine.read fun bot => commandsNamed bot invocation.name)
      (Routine.read fun bot => commandsNamed bot invocation.name) :=
    .read (by rintro a _ ⟨rfl, rfl⟩; exact ⟨rfl, rfl⟩)
  unfold obey
  refine hnamed.bind ?_
  rintro _ _ ⟨rfl, rfl⟩
  -- What is run and whether anything is allowed depend on what both have in common.
  rw [startable_named_eq h, allowed_named_eq h]
  refine (Routine.Respects.mapM (fun c : Command =>
    respects_run_recast c.chain (.message m) invocation.args 0) _).bind ?_
  rintro results _ rfl
  have hrecord : Routine.Respects (Recast (β := β) old new) Eq
      (Routine.modify fun bot => { bot with users := bot.users.recordCommand m.author now })
      (Routine.modify fun bot => { bot with users := bot.users.recordCommand m.author now }) :=
    respects_modify_recast fun _ _ => ⟨rfl, rfl⟩
  have hpersist : Routine.Respects (Recast (β := β) old new) Eq
      (Routine.modify Bot.persist) (Routine.modify Bot.persist) :=
    respects_modify_recast fun _ _ => ⟨rfl, rfl⟩
  split
  · exact hrecord.bind fun _ _ _ => hpersist.bind fun _ _ _ => .pure ⟨rfl, rfl⟩
  · exact hpersist.bind fun _ _ _ => .pure ⟨rfl, rfl⟩

/-- So they do for a message: what comes before the commands has nothing to do
with them. -/
theorem respects_message_recast {m : Message}
    (h : new.filter (authorize · m.roles) = old.filter (authorize · m.roles)) (now : Instant) :
    Routine.Respects (Recast (β := β) old new)
      (fun x y => x.recount (refusals m.roles old) = x ∧ x.recount (refusals m.roles new) = y)
      (message m now) (message m now) := by
  rw [message_eq]
  by_cases hbot : m.author.bot = true
  · rw [if_pos hbot]
    exact .pure ⟨rfl, rfl⟩
  · rw [if_neg hbot]
    refine (respects_runEvent_recast EventName.anyMessage (.message m)).bind fun _ _ _ => ?_
    have hinspect : Routine.Respects (Recast (β := β) old new) Eq
        (Routine.modify fun bot => bot.inspect m) (Routine.modify fun bot => bot.inspect m) :=
      respects_modify_recast fun _ _ => ⟨rfl, rfl⟩
    refine hinspect.bind fun _ _ _ => (respects_read_recast fun _ _ => rfl).bind ?_
    rintro marker _ rfl
    cases Invocation.parse? marker m.content with
    | none => exact .pure ⟨rfl, rfl⟩
    | some invocation => exact respects_obey_recast h now invocation

/-- Denied commands have no influence on what comes of a message.

Whatever the commands that the author may not run are exchanged for, the
outcome, the state of the bot but for its configuration and the time that
passes are the same. And whatever is taken away from them or added to them, as
long as the allowed commands are the same in the same order, only the count of
denied commands differs, and it is the count of those there are. -/
theorem message_of_denied (m : Message) (now : Instant) (bot : Bot β) (commands : List Command)
    [Conduct.Disregards β (Recast bot.commands commands)] :
    let result := (message m now).alone bot
    let result' := (message m now).alone { bot with commands }
    (List.Forall₂ (Command.Twin m.roles) bot.commands commands →
      result' = { result with state := { result.state with commands } }) ∧
    (commands.filter (authorize · m.roles) = bot.commands.filter (authorize · m.roles) →
      result' =
        { value := result.value.recount (refusals m.roles commands)
          state := { result.state with commands }
          elapsed := result.elapsed }) := by
  intro result result'
  have hcommon (h : commands.filter (authorize · m.roles) =
      bot.commands.filter (authorize · m.roles)) :
      result.value.recount (refusals m.roles bot.commands) = result.value ∧
      result' =
        { value := result.value.recount (refusals m.roles commands)
          state := { result.state with commands }
          elapsed := result.elapsed } := by
    rcases (respects_message_recast h now).alone (s := bot) ⟨rfl, rfl⟩ with
      ⟨⟨hvalue, hvalue'⟩, hstate, helapsed⟩
    refine ⟨hvalue, ?_⟩
    calc result' = ⟨result'.value, result'.state, result'.elapsed⟩ := rfl
      _ = _ := by rw [← hvalue', hstate.after, ← helapsed]
  refine ⟨fun htwins => ?_, fun h => (hcommon h).2⟩
  rcases hcommon (Command.Twin.filter_eq htwins) with ⟨hvalue, hresult⟩
  have hcounts : refusals m.roles commands = refusals m.roles bot.commands :=
    funext (Command.Twin.refusals_eq htwins)
  rw [hresult, hcounts, hvalue]

/-- A command for moderators, doing something, and one for everybody share a
name. -/
def guarded (actions : List Action) : List Command :=
  [⟨⟨"kick", actions⟩, ["mods"]⟩, ⟨⟨"kick", [⟨none, []⟩]⟩, []⟩]

/-- A bot with the shipped mods and both commands. -/
def guardedBot : Bot Shipped :=
  (Bot.registerAll (Shipped.manifest id)
    (.load ⟨.standard, .null, guarded [⟨some "wait", []⟩], []⟩ .empty (fun _ _ _ => none) id)).1

/-- Somebody without roles uses the name. -/
def plea : Message := ⟨some 20, 10, ⟨1, "guest", false⟩, "!kick", []⟩

theorem valid_leapDay : Date.Valid 2024 2 29 := by decide

/-- The time of the plea. -/
def leapDay : Instant := ⟨⟨2024, 2, 29, valid_leapDay⟩, 0, 0, Instant.valid_midnight⟩

theorem message_of_denied_guarded :
    let result := (message plea leapDay).alone guardedBot
    List.Forall₂ (Command.Twin plea.roles) guardedBot.commands (guarded []) ∧
    (message plea leapDay).alone { guardedBot with commands := guarded [] } =
      { result with state := { result.state with commands := guarded [] } } ∧
    (guarded []).tail.filter (authorize · plea.roles) =
      guardedBot.commands.filter (authorize · plea.roles) ∧
    (message plea leapDay).alone { guardedBot with commands := (guarded []).tail } =
      { value := result.value.recount (refusals plea.roles (guarded []).tail)
        state := { result.state with commands := (guarded []).tail }
        elapsed := result.elapsed } := by
  intro result
  have hcommands : guardedBot.commands = guarded [⟨some "wait", []⟩] := rfl
  have htwins : List.Forall₂ (Command.Twin plea.roles) guardedBot.commands (guarded []) := by
    rw [hcommands]
    exact .cons ⟨rfl, rfl, fun h => by cases h⟩ (.cons ⟨rfl, rfl, fun _ => rfl⟩ .nil)
  have hallowed : (guarded []).tail.filter (authorize · plea.roles) =
      guardedBot.commands.filter (authorize · plea.roles) := by
    rw [hcommands]
    rfl
  exact ⟨htwins, (message_of_denied plea _ guardedBot (guarded [])).1 htwins, hallowed,
    (message_of_denied plea _ guardedBot (guarded []).tail).2 hallowed⟩

end Dispatch

end ActionChain
