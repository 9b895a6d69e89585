import ActionChain.Proofs.Chain.Aloof
import ActionChain.Proofs.Chain.Course

/-!
# The Limit on Steps

What the limit of the settings does to a run, and what it does not do.

It is the run that counts its steps; the steps know nothing of it. No handler
that is built in, shipped or scripted looks at the limit, and none complains
about it on its own (`Conduct.Unlimited`), so a course is the same under every
limit, and running out of steps is told apart from every failure of a step.
Together with the course of a run this settles when a run completes, when it
runs out of steps and when it fails, with everything it does up to then, and
that a larger limit is of no consequence to a run that completed
(`Chain.run_eq_course`).

## Main definitions

* `Bot.limited`: a bot under another limit.
* `Conduct.Unlimited`: behaviours that have nothing to do with the limit.

## Theorems

* `Chain.respects_advance_limited`: steps have nothing to do with the limit.
* `Chain.course_limited`: the course under another limit.
* `Chain.run_eq_course`: when and how a run ends, and what a larger limit does.
-/

namespace ActionChain

variable {β : Type}

/-- A bot under another limit. -/
def Bot.limited (limit : Nat) (bot : Bot β) : Bot β :=
  { bot with settings.maxChainSteps := limit }

/-- Two bots that differ in the limit at most. -/
def Bot.Limited (limit : Nat) (a b : Bot β) : Prop := b = a.limited limit

instance {limit : Nat} : Bot.Aloof (Bot.Limited (β := β) limit) where
  level := by rintro a _ rfl; exact ⟨rfl, rfl, rfl, rfl, rfl, rfl, rfl⟩
  vars := by rintro a _ vars rfl; rfl
  deliveries := by rintro a _ deliveries rfl; rfl
  taken := by rintro a _ taken rfl; rfl
  notes := by rintro a _ notes rfl; rfl

open ChainError (Unlimited)

/-- Behaviours that reply the same under every limit and never complain about
it. -/
class Conduct.Unlimited (β : Type) [Conduct β] : Prop where
  respects_handle (behaviour : β) (step : Step) (limit : Nat) :
    Routine.Respects (Bot.Limited limit) (fun x y => x = y ∧ ChainError.Unlimited x.result)
      (Conduct.handle behaviour step) (Conduct.handle behaviour step)

instance : Conduct.Unlimited Shipped := ⟨fun s step _ => Bot.Aloof.respects_shipped s step⟩

instance : Conduct.Unlimited Performer := ⟨fun p step _ => p.respects_handle step⟩

/-! ## Steps and courses -/

namespace Chain

variable [Conduct β] [Conduct.Unlimited β]

theorem respects_advance_limited (chain : Chain) (subject : Subject) (index : Nat)
    (args : List String) (limit : Nat) :
    Routine.Respects (Bot.Limited (β := β) limit) (fun x y => x = y ∧ Unlimited x.1)
      (chain.advance subject index args) (chain.advance subject index args) := by
  unfold advance
  cases chain.actions[index]? with
  | none => exact .pure ⟨rfl, trivial⟩
  | some action =>
      refine (Bot.Aloof.respects_read fun a b hab => ?_).bind fun handler handler' hsame => ?_
      · unfold handlerOf
        rw [hab.registry]
      · subst hsame
        cases handler with
        | none =>
            refine (Bot.Aloof.respects_builtin _).bind ?_
            rintro reply _ ⟨rfl, hreply⟩
            exact .pure ⟨rfl, hreply.map _⟩
        | some behaviour =>
            refine (Conduct.Unlimited.respects_handle behaviour _ limit).bind ?_
            rintro reply _ ⟨rfl, hreply⟩
            exact .pure ⟨rfl, hreply.map _⟩

variable (chain : Chain) (subject : Subject) (args : List String) (start : Nat) (bot : Bot β)

/-- The course under another limit is the same but for the limit. -/
theorem course_limited (limit n : Nat) :
    course chain subject args start (bot.limited limit) n =
      { course chain subject args start bot n with
        bot := (course chain subject args start bot n).bot.limited limit } := by
  induction n with
  | zero => rfl
  | succ n ih =>
      rw [course_succ, course_succ, ih]
      generalize course chain subject args start bot n = c
      rcases c with ⟨executed, args, bot, elapsed, e | (index | _)⟩
      · rfl
      · rcases (respects_advance_limited chain subject index args limit).alone
          (s := bot) (t := bot.limited limit) rfl with ⟨⟨hvalue, -⟩, hstate, helapsed⟩
        have hstate : ((advance chain subject index args).alone (bot.limited limit)).state =
            ((advance chain subject index args).alone bot).state.limited limit := hstate
        simp only [courseStep, ← hvalue, hstate, ← helapsed]
      · rfl

/-- No step of a course complains about the limit. -/
theorem unlimited_course (n : Nat) : Unlimited (course chain subject args start bot n).next := by
  induction n with
  | zero => trivial
  | succ n ih =>
      rw [course_succ]
      generalize course chain subject args start bot n = c at ih
      rcases c with ⟨executed, args, bot, elapsed, e | (index | _)⟩
      · exact ih
      · have halone := (respects_advance_limited chain subject index args 0).alone
          (s := bot) (t := bot.limited 0) rfl
        exact halone.1.2
      · trivial

/-! ## Runs -/

omit [Conduct.Unlimited β] in
/-- A run, told by the course of its chain, whatever the bot, its mods and the
limit.

It completes exactly if for some number of steps within the limit all of them
are inside the chain and the last one ends the chain or leads outside; without
any step if the start is outside. It fails with the error of the first step that
fails, or for want of steps exactly if as many as the limit allows lead inside.
Whatever it does before it ends is what the steps of the course do; the indices
executed are those the course led to, and each has a next one within the length
of the chain. A larger limit is of no consequence to a run that completes, and
neither are settings with a larger limit if no behaviour has to do with the
limit, in which case no step is to be mistaken for the want of steps. -/
theorem run_eq_course (bot : Bot β) :
    let limit := bot.settings.maxChainSteps
    let c := course chain subject args start bot
    let run := (chain.run subject args start).alone bot
    (∀ trace, run.value = .ok trace ↔ ∃ n ≤ limit,
      (∀ k < n, (c k).Inside chain.actions.length) ∧ (c n).Complete chain.actions.length ∧
        trace = ⟨(c n).executed, (c n).args⟩) ∧
    (∀ e, run.value = .error e ↔
      ((∀ k ≤ limit, (c k).Inside chain.actions.length) ∧ e = .stepLimit chain.name limit) ∨
        ∃ n ≤ limit, (∀ k < n, (c k).Inside chain.actions.length) ∧ (c n).next = .error e) ∧
    (∃ n, chain.Stops limit c n ∧
      run = ⟨chain.outcome limit (c n), (c n).bot, (c n).elapsed⟩ ∧
      (c n).executed.map (fun index => .ok (.next index)) =
        (List.range n).map (fun k => (c k).next) ∧
      ∀ index ∈ (c n).executed, index + 1 ≤ chain.actions.length) ∧
    (∀ trace, run.value = .ok trace → ∀ limit' ≥ limit,
      (runFrom chain subject limit' limit' start args []).alone bot = run) ∧
    (Conduct.Unlimited β →
      (run.value = .error (.stepLimit chain.name limit) ↔
        ∀ k ≤ limit, (c k).Inside chain.actions.length) ∧
      ∀ trace, run.value = .ok trace → ∀ limit' ≥ limit,
        (chain.run subject args start).alone (bot.limited limit') =
          ⟨run.value, run.state.limited limit', run.elapsed⟩) := by
  intro limit c run
  rcases exists_stop chain subject args start bot with ⟨n, hstops, hrun⟩
  have hrun : run = ⟨chain.outcome limit (c n), (c n).bot, (c n).elapsed⟩ := hrun
  have hvalue : run.value = chain.outcome limit (c n) := by rw [hrun]
  have hexecuted := executed_course chain subject args start bot hstops.inside
  refine ⟨fun trace => ?_, fun e => ?_, ⟨n, hstops, hrun, hexecuted⟩, ?_, ?_⟩
  · rw [hvalue]
    exact hstops.outcome_eq_ok
  · rw [hvalue]
    exact hstops.outcome_eq_error
  · intro trace htrace limit' hle
    rw [hvalue] at htrace
    rcases hstops.outcome_of_le htrace hle with ⟨hstops', houtcome⟩
    rcases exists_stop_of_limit chain subject limit' args start bot with ⟨n', hn', hrun'⟩
    obtain rfl : n = n' := hstops'.unique hn'
    rw [hrun', hrun, htrace]
    exact congrArg (Routine.Finished.mk · _ _) houtcome
  · intro hunlimited
    refine ⟨?_, fun trace htrace limit' hle => ?_⟩
    · rw [hvalue, hstops.outcome_eq_error]
      constructor
      · rintro (⟨hinside, -⟩ | ⟨m, -, -, hnext⟩)
        · exact hinside
        · exact absurd hnext ((unlimited_course chain subject args start bot m).ne_stepLimit _ _)
      · exact fun hinside => .inl ⟨hinside, rfl⟩
    · rw [hvalue] at htrace
      rcases hstops.outcome_of_le htrace hle with ⟨hstops', houtcome⟩
      rcases exists_stop chain subject args start (bot.limited limit') with ⟨n', hn', hrun'⟩
      rw [course_limited] at hrun'
      have hcourse : course chain subject args start (bot.limited limit') =
          fun k => { c k with bot := (c k).bot.limited limit' } :=
        funext (course_limited chain subject args start bot limit')
      rw [hcourse] at hn'
      -- Where a run stops is a matter of where steps lead.
      obtain rfl : n = n' := hstops'.unique ⟨hn'.le, hn'.inside, hn'.last⟩
      rw [hrun', hrun, htrace]
      exact congrArg (Routine.Finished.mk · _ _) houtcome

/-- Two actions that do nothing. -/
def idle : Chain := ⟨"idle", [⟨none, []⟩, ⟨none, []⟩]⟩

/-- A bot that allows two steps. -/
def brisk : Bot Shipped :=
  .load ⟨{ Settings.standard with maxChainSteps := 2 }, .null, [], []⟩ .empty (fun _ _ _ => none) id

theorem run_eq_course_idle :
    ((idle.run (.guild ⟨1, "home"⟩) [] 0).alone brisk).value = .ok ⟨[0, 1], []⟩ ∧
    (idle.run (.guild ⟨1, "home"⟩) [] 0).alone (brisk.limited 5) =
      ⟨((idle.run (.guild ⟨1, "home"⟩) [] 0).alone brisk).value,
        ((idle.run (.guild ⟨1, "home"⟩) [] 0).alone brisk).state.limited 5,
        ((idle.run (.guild ⟨1, "home"⟩) [] 0).alone brisk).elapsed⟩ := by
  have hvalue : ((idle.run (.guild ⟨1, "home"⟩) [] 0).alone brisk).value = .ok ⟨[0, 1], []⟩ := rfl
  rcases run_eq_course idle (.guild ⟨1, "home"⟩) [] 0 brisk with ⟨-, -, -, -, hlimit⟩
  exact ⟨hvalue, (hlimit inferInstance).2 _ hvalue 5 (by decide)⟩

end Chain

end ActionChain
