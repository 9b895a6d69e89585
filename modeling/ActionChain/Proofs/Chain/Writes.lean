import ActionChain.Proofs.Chain.Compaction
import ActionChain.Proofs.Dispatch.Handled
import ActionChain.Proofs.Tracking

/-!
# What Steps Write

What the steps of a run do to one variable, read off the actions.

A variable is written in two ways: a number is added to what it holds, or it is
given a value whatever it holds. Which of the two a step does, if any, is in the
parameters of its action and in who handles it, and depends on nothing a run
comes across on its way. Each step writes a variable at most once, in a single
act, so nobody can get in between what an addition reads and what it stores.

So a routine is tracked by the writes it has made. In the end these are the
writes of the steps begun, in order, whoever else was at work in between and
whether or not the run failed.

## Main definitions

* `Write`, `Write.Effect`: a write to a variable, and what it does.
* `Conduct.Accounts`: behaviours of which it is known what they write.
* `Chain.write?`, `Chain.writes`: the writes of an action and of steps.
* `Bot.Wrote`: an act with the write it makes.

## Theorems

* `Bot.lookUp_storeJson_of_ne`, `Bot.lookUp_storeValue_of_ne`: storing is noticed
  under one key only.
* `Builtin.writes_handle`, `Shipped.writes_handle`: the handlers.
* `Chain.tracked_report`: a run is tracked by the writes of the steps begun.
-/

namespace ActionChain

variable {α β : Type}

/-- A write to a variable. -/
inductive Write where
  /-- An amount is added. -/
  | add (amount : Binary64)
  /-- A value is stored that does not depend on the old one. -/
  | other
  deriving DecidableEq

/-- What a write, or none, does to the value of a variable. Nothing is added to
what is not a number, and any value may be stored. -/
def Write.Effect (key : String) : Option Write → (before after : Option Value) → Prop
  | none, before, after => after = before
  | some (.add amount), before, after =>
    match Shipped.numberOf key before with
    | .ok x => after = some (.number (x + amount))
    | .error _ => after = before
  | some .other, _, _ => True

/-! ## Looking up what was stored -/

theorem Graph.get?_set {g g' : Graph} {key : String} {v : Value} (h : g.set key v = .ok g')
    (key' : String) : g'.get? key' = if key' = key then some v else g.get? key' := by
  unfold Graph.set at h
  split at h
  · cases h
    exact Dict.get?_insert ..
  · cases h

namespace Bot

variable {bot : Bot β}

theorem lookUp_update (s s' : Scope) (g : Graph) (key : String) :
    { bot with vars := bot.vars.update s g }.lookUp s' key =
      if s = s' then g.get? key else bot.lookUp s' key := by
  unfold lookUp
  rw [Variables.scope_update]
  split <;> rfl

/-- A graph that has the old value under a key does not change what is looked up
there. -/
theorem lookUp_update_of_get? {s s' : Scope} {key : String} {g : Graph}
    (hg : s = s' → g.get? key = bot.lookUp s' key) :
    { bot with vars := bot.vars.update s g }.lookUp s' key = bot.lookUp s' key := by
  rw [lookUp_update]
  split
  · rename_i hsame
    exact hg hsame
  · rfl

/-- Under another key nothing is noticed, whether or not the value was stored. -/
theorem lookUp_storeJson_of_ne {s s' : Scope} {key key' : String} (hother : ¬ (s = s' ∧ key = key'))
    (j : Json) : (bot.storeJson s key j).1.lookUp s' key' = bot.lookUp s' key' := by
  -- The arena has grown, but the roots are the old ones.
  have hroots : ((bot.vars.scope s).importJson j).1.get? key' = bot.lookUp s key' := rfl
  unfold storeJson
  dsimp only
  split
  · rename_i g hset
    refine lookUp_update_of_get? fun hsame => ?_
    rw [Graph.get?_set hset, if_neg fun hkey => hother ⟨hsame, hkey.symm⟩, hroots, hsame]
  · refine lookUp_update_of_get? fun hsame => ?_
    rw [hroots, hsame]

theorem lookUp_storeValue_of_ne {s s' : Scope} {key key' : String}
    (hother : ¬ (s = s' ∧ key = key')) (v : Value) :
    (bot.storeValue s key v).1.lookUp s' key' = bot.lookUp s' key' := by
  unfold storeValue
  split
  · rename_i g hset
    refine lookUp_update_of_get? fun hsame => ?_
    rw [Graph.get?_set hset, if_neg fun hkey => hother ⟨hsame, hkey.symm⟩, ← hsame]
    rfl
  · rfl

/-- A number refers to nothing, so it is always stored. -/
theorem lookUp_storeNumber (s : Scope) (key : String) (x : Binary64) :
    (bot.storeValue s key (.number x)).1.lookUp s key = some (.number x) := by
  have hset : (bot.vars.scope s).set key (.number x) =
      .ok { bot.vars.scope s with roots := (bot.vars.scope s).roots.insert key (.number x) } := rfl
  unfold storeValue
  rw [hset]
  dsimp only
  rw [lookUp_update, if_pos rfl, Graph.get?_set hset, if_pos rfl]

theorem lookUp_send (channel : UInt64) (text : String) (s : Scope) (key : String) :
    (bot.send channel text).1.lookUp s key = bot.lookUp s key := by
  unfold send
  dsimp only
  split <;> rfl

end Bot

/-! ## Routines that write at most once -/

section

variable (scope : Scope) (key : String)

/-- What handlers work on has changed at most, and the variable by one write or by
none, which goes to the end of the writes made so far. -/
def Bot.Wrote (writes : List Write) (before after : Bot β) (writes' : List Write) : Prop :=
  before.Handled after ∧ ∃ w : Option Write, writes' = writes ++ w.toList ∧
    Write.Effect key w (before.lookUp scope key) (after.lookUp scope key)

/-- A routine that makes a certain write, or none, on every way through it. -/
def Routine.Writes (A : Bot β → Prop) (w : Option Write) (r : Routine (Bot β) α) : Prop :=
  ∀ writes, r.Tracked A (Bot.Wrote scope key) (fun writes' _ => writes' = writes ++ w.toList) writes

end

namespace Routine.Writes

variable {scope : Scope} {key : String} {A : Bot β → Prop} {w : Option Write}
  {r : Routine (Bot β) α} {γ : Type} {f : α → Routine (Bot β) γ}

theorem pure (a : α) : Writes scope key A none (Pure.pure a : Routine (Bot β) α) :=
  fun writes => Tracked.pure (List.append_nil writes).symm

/-- The write is made first. -/
theorem bind (h : Writes scope key A w r) (hf : ∀ a, Writes scope key A none (f a)) :
    Writes scope key A w (r >>= f) := by
  intro writes
  refine (h writes).bind ?_
  rintro _ a rfl
  have hrest := hf a (writes ++ w.toList)
  rwa [Option.toList_none, List.append_nil] at hrest

theorem atomic {f : Bot β → Bot β × α} (hhandled : ∀ bot : Bot β, bot.Handled (f bot).1)
    (heffect : ∀ bot : Bot β,
      Write.Effect key w (bot.lookUp scope key) ((f bot).1.lookUp scope key)) :
    Writes scope key A w (Routine.atomic f) :=
  fun _ => Tracked.atomic fun bot _ => ⟨_, ⟨hhandled bot, w, rfl, heffect bot⟩, rfl⟩

theorem read (f : Bot β → α) : Writes scope key A none (Routine.read f) :=
  atomic (f := fun bot => (bot, f bot)) Bot.Handled.refl fun _ => rfl

theorem pause (ms : Nat) : Writes scope key A none (Routine.pause (σ := Bot β) ms) :=
  fun writes => (List.append_nil writes).symm

/-- What is looked up is known beforehand. -/
theorem consult {g : Bot β → α} {a : α} (hg : ∀ bot, A bot → g bot = a)
    (h : Writes scope key A w (f a)) : Writes scope key A w (Routine.read g >>= f) := by
  intro writes bot hbot
  have hrest := h writes
  rw [← hg bot hbot] at hrest
  exact ⟨writes, ⟨.refl bot, none, (List.append_nil writes).symm, rfl⟩, hrest⟩

end Routine.Writes

/-! ## Handlers -/

namespace Builtin

variable (scope : Scope) (key : String)

/-- What an assignment does to a variable. -/
def Assignment.write? (a : Assignment) : Option Write :=
  if a.scope = scope ∧ a.key = key then some .other else none

/-- What the built-in action does to a variable. -/
def write? (action : Action) : Option Write :=
  ((Params.read? action.paramSource).bind Params.set).bind (Assignment.write? scope key)

variable {scope key} {A : Bot β → Prop}

theorem writes_assign (step : Step) (a : Option Assignment) :
    (assign (β := β) step a).Writes scope key A (a.bind (Assignment.write? scope key)) := by
  cases a with
  | none => exact .pure _
  | some a =>
      refine .atomic (fun bot => .storeJson bot ..) fun bot => ?_
      by_cases hsame : a.scope = scope ∧ a.key = key
      · simp only [Option.bind_some, Assignment.write?, if_pos hsame]
        trivial
      · simp only [Option.bind_some, Assignment.write?, if_neg hsame]
        exact Bot.lookUp_storeJson_of_ne hsame _

theorem writes_speak (step : Step) (p : Params) :
    (speak (β := β) step p).Writes scope key A none := by
  unfold speak
  cases p.message with
  | none => exact .pure _
  | some template =>
      refine (Routine.Writes.read _).bind fun text => ?_
      cases p.channel.or step.subject.channelId? with
      | some channel => exact .atomic (fun bot => .send bot ..) fun bot => Bot.lookUp_send ..
      | none => exact .pure _

theorem writes_handle (step : Step) :
    (handle (β := β) step).Writes scope key A (write? scope key step.action) := by
  unfold handle Step.params write?
  cases Params.read? step.action.paramSource with
  | none => exact .pure _
  | some p =>
      -- The variable is set before anything is said.
      refine (writes_assign step p.set).bind fun result => ?_
      cases result with
      | error e => exact .pure _
      | ok u =>
          refine (writes_speak step p).bind fun result => ?_
          cases result <;> exact .pure _

end Builtin

namespace Shipped

variable (scope : Scope) (key : String)

/-- What an addition does to a variable. -/
def Increment.write? (p : Increment) : Option Write :=
  if p.scope = scope ∧ p.key = key then some (.add p.amount) else none

/-- What a choice does to a variable. Without anything to choose from it does
nothing. -/
def Choice.write? (p : Choice) : Option Write :=
  if p.choices.isEmpty then none
  else if p.scope = scope ∧ p.key = key then some .other else none

/-- What a shipped mod does to a variable. -/
def write? (s : Shipped) (action : Action) : Option Write :=
  match s with
  | .incrementVar => (Increment.read? action.paramSource).bind (Increment.write? scope key)
  | .randomPick => (Choice.read? action.paramSource).bind (Choice.write? scope key)
  | .ifVar | .wait | .joinLogger => none

variable {scope key} {A : Bot β → Prop}

/-- What an addition reads and what it stores are one act. -/
theorem writes_increment (p : Increment) :
    (Routine.atomic (σ := Bot β) p.apply).Writes scope key A (p.write? scope key) := by
  refine .atomic (.increment p) fun bot => ?_
  by_cases hsame : p.scope = scope ∧ p.key = key
  · rw [Increment.write?, if_pos hsame]
    rcases hsame with ⟨rfl, rfl⟩
    unfold Write.Effect Increment.apply
    dsimp only
    split
    · rename_i x hnumber
      rw [hnumber]
      exact Bot.lookUp_storeNumber ..
    · rename_i e hnumber
      rw [hnumber]
  · rw [Increment.write?, if_neg hsame]
    show (p.apply bot).1.lookUp scope key = bot.lookUp scope key
    unfold Increment.apply
    split
    · rfl
    · exact Bot.lookUp_storeValue_of_ne hsame _

theorem writes_choice (p : Choice) :
    (Routine.atomic (σ := Bot β) p.apply).Writes scope key A (p.write? scope key) := by
  refine .atomic (.choice p) fun bot => ?_
  unfold Choice.write? Choice.apply
  split
  · rfl
  · split
    · trivial
    · rename_i hother
      -- The draw comes first and touches no variable.
      exact Bot.lookUp_storeValue_of_ne hother _

theorem writes_handle (s : Shipped) (step : Step) :
    (handle (β := β) s step).Writes scope key A (s.write? scope key step.action) := by
  unfold handle Step.params write?
  cases s with
  | ifVar =>
      cases Comparison.read? step.action.paramSource with
      | none => exact .pure _
      | some p => exact (Routine.Writes.read _).bind fun _ => .pure _
  | incrementVar =>
      cases Increment.read? step.action.paramSource with
      | none => exact .pure _
      | some p => exact (writes_increment p).bind fun _ => .pure _
  | wait =>
      cases readPause? step.action.paramSource with
      | none => exact .pure _
      | some ms => exact (Routine.Writes.pause ms).bind fun _ => .pure _
  | randomPick =>
      cases Choice.read? step.action.paramSource with
      | none => exact .pure _
      | some p => exact (writes_choice p).bind fun _ => .pure _
  | joinLogger => exact .pure _

end Shipped

/-- A script only takes notes. -/
theorem Script.writes_handle {scope : Scope} {key : String} {A : Bot β → Prop} (s : Script)
    (step : Step) : (handle (β := β) s step).Writes scope key A none := by
  cases s with
  | listener label failure => exact .pure _
  | action label name script =>
      have hnote (n : Note) : (note (β := β) label n).Writes scope key A none :=
        .atomic (f := fun bot => (bot.note (some label) n, ()))
          (fun bot => .note bot (some label) n) fun _ => rfl
      exact (hnote _).bind fun _ => .pure _

/-- Behaviours of which it is known what they write to a variable. -/
class Conduct.Accounts (β : Type) [Conduct β] where
  write? : Scope → String → β → Action → Option Write
  writes_handle (scope : Scope) (key : String) (A : Bot β → Prop) (behaviour : β) (step : Step) :
    (Conduct.handle behaviour step).Writes scope key A (write? scope key behaviour step.action)

instance : Conduct.Accounts Shipped where
  write? := Shipped.write?
  writes_handle _ _ _ s step := s.writes_handle step

instance : Conduct.Accounts Performer where
  write? scope key
    | .shipped s, action => s.write? scope key action
    | .scripted _, _ => none
  writes_handle
    | _, _, _, .shipped s, step => s.writes_handle step
    | _, _, _, .scripted s, step => s.writes_handle step

/-! ## Steps and runs -/

namespace Chain

variable [Conduct β] [Conduct.Accounts β] (bot : Bot β) (scope : Scope) (key : String)

/-- What an action does to a variable on a bot with certain mods. -/
def write? (action : Action) : Option Write :=
  match handlerOf action bot with
  | some behaviour => Conduct.Accounts.write? scope key behaviour action
  | none => Builtin.write? scope key action

/-- What the steps at some indices do to a variable, in order. -/
def writes (chain : Chain) (indices : List Nat) : List Write :=
  indices.filterMap fun index => chain.actions[index]?.bind (write? bot scope key)

variable {bot scope key}

theorem writes_concat (chain : Chain) (indices : List Nat) (index : Nat) :
    chain.writes bot scope key (indices ++ [index]) =
      chain.writes bot scope key indices ++
        (chain.actions[index]?.bind (write? bot scope key)).toList := by
  simp only [writes, List.filterMap_append, List.filterMap_cons, List.filterMap_nil]
  cases chain.actions[index]?.bind (write? bot scope key) <;> rfl

theorem writes_advance (chain : Chain) (subject : Subject) (index : Nat) (args : List String) :
    (advance chain subject index args).Writes scope key (fun s => s.registry = bot.registry)
      (chain.actions[index]?.bind (write? bot scope key)) := by
  unfold advance
  cases chain.actions[index]? with
  | none => exact .pure _
  | some action =>
      -- The handler is looked up when the step comes, but nobody has changed the mods.
      refine .consult (a := handlerOf action bot) (fun s hs => ?_) ?_
      · unfold handlerOf
        rw [hs]
      · rw [Option.bind_some, write?]
        cases handlerOf action bot with
        | none =>
            exact (Builtin.writes_handle ⟨subject, action, args, chain, index⟩).bind
              fun _ => .pure _
        | some behaviour =>
            exact (Conduct.Accounts.writes_handle scope key _ behaviour
              ⟨subject, action, args, chain, index⟩).bind fun _ => .pure _

/-- From an index on, a run is tracked by the writes of all the steps begun. -/
theorem tracked_reportFrom (chain : Chain) (subject : Subject) (limit left index : Nat)
    (args : List String) (started : List Nat) :
    (reportFrom chain subject limit left index args started).Tracked
      (fun s => s.registry = bot.registry) (Bot.Wrote scope key)
      (fun done report => done = chain.writes bot scope key report.started)
      (chain.writes bot scope key started.reverse) := by
  induction left generalizing index args started with
  | zero =>
      unfold reportFrom
      split <;> exact .pure rfl
  | succ left ih =>
      unfold reportFrom
      split
      · refine Routine.Tracked.bind (writes_advance chain subject index args _)
          fun done reply hdone => ?_
        -- One more step was begun, and its write is the last one.
        have hstarted : done = chain.writes bot scope key (index :: started).reverse := by
          rw [hdone, List.reverse_cons, writes_concat]
        rcases reply with ⟨_ | _ | _, args⟩
        · exact .pure hstarted
        · rw [hstarted]
          exact ih _ _ _
        · exact .pure hstarted
      · exact .pure rfl

/-- A run is tracked by the writes of the steps begun. -/
theorem tracked_report (chain : Chain) (subject : Subject) (args : List String) (start : Nat) :
    (chain.report subject args start).Tracked (fun s => s.registry = bot.registry)
      (Bot.Wrote scope key) (fun done report => done = chain.writes bot scope key report.started)
      [] := by
  refine Routine.Tracked.bind (Routine.Tracked.read fun s _ => ?_)
    (Q := fun done _ => done = ([] : List Write)) ?_
  · exact ⟨⟨.refl s, none, rfl, rfl⟩, rfl⟩
  · rintro _ limit rfl
    exact tracked_reportFrom chain subject limit limit start args []

end Chain

end ActionChain
