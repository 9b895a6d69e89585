import ActionChain.Proofs.Chain.Blind
import ActionChain.Proofs.Variables.RoundTrip
import ActionChain.Variables.File

/-!
# Compaction Goes Unnoticed

A run that others interrupt to compact the variables ends like one that nobody
interrupts.

Writing the variables compacts them, and that can happen between any two cuts
of a run: a chain that waits is suspended, and so is one whose message is on
its way. Compaction moves nodes and forgets others, but it keeps the written
form, so it keeps bots alike; and a run is blind, because its steps are. What
is left is to say what can be seen of a run. A failing run does not report how
far it got, so a report adds the indices of the steps that were begun, and
dropping them again gives the run.

## Main definitions

* `Chain.Report`, `Chain.report`: a run with the steps it began.
* `Bot.compactWhen`: compaction on a schedule.
* `Chain.Indistinct`: runs that cannot be told apart.

## Theorems

* `Chain.report_outcome`: without the steps begun, a report is the run.
* `Chain.respects_report`: a run is blind.
* `Bot.Alike.compactWhen`: compaction keeps bots alike, on any schedules.
* `Chain.indistinct_of_alike`: runs of alike bots, amid compactions on any two
  schedules, cannot be told apart.
-/

namespace ActionChain

variable {β : Type}

namespace Chain

/-! ## Reports -/

/-- What can be seen of a run: the indices of the steps begun, in order, and how
it ended. -/
structure Report where
  started : List Nat
  outcome : Except ChainError Trace

section

variable [Conduct β]

/-- A run from an index that keeps the indices of the steps begun, latest
first, also when it fails. -/
def reportFrom (chain : Chain) (subject : Subject) (limit : Nat) :
    (left index : Nat) → (args : List String) → (started : List Nat) → Routine (Bot β) Report
  | left, index, args, started =>
    if index < chain.actions.length then
      match left with
      | 0 => pure ⟨started.reverse, .error (.stepLimit chain.name limit)⟩
      | left + 1 => do
        match ← advance chain subject index args with
        | (.error e, _) => pure ⟨(index :: started).reverse, .error e⟩
        | (.ok .terminated, args) =>
          pure ⟨(index :: started).reverse, .ok ⟨(index :: started).reverse, args⟩⟩
        | (.ok (.next target), args) =>
          reportFrom chain subject limit left target args (index :: started)
    else pure ⟨started.reverse, .ok ⟨started.reverse, args⟩⟩

/-- A run from an index under the limit of the settings, with the steps it
began. -/
def report (chain : Chain) (subject : Subject) (args : List String) (start : Nat) :
    Routine (Bot β) Report := do
  let limit ← Routine.read fun bot => bot.settings.maxChainSteps
  reportFrom chain subject limit limit start args []

theorem reportFrom_outcome (chain : Chain) (subject : Subject) (limit left index : Nat)
    (args : List String) (started : List Nat) :
    Report.outcome <$> reportFrom (β := β) chain subject limit left index args started =
      runFrom chain subject limit left index args started := by
  induction left generalizing index args started with
  | zero =>
      unfold reportFrom runFrom
      by_cases hin : index < chain.actions.length
      · rw [if_pos hin, if_pos hin]
        rfl
      · rw [if_neg hin, if_neg hin]
        rfl
  | succ left ih =>
      unfold reportFrom runFrom
      by_cases hin : index < chain.actions.length
      · rw [if_pos hin, if_pos hin]
        simp only [map_bind]
        -- Both begin with the same step; what is left depends on its reply.
        refine congrArg _ (funext fun reply => ?_)
        rcases reply with ⟨result, args⟩
        cases result with
        | error e => rfl
        | ok a =>
            cases a with
            | terminated => rfl
            | next target => exact ih target args (index :: started)
      · rw [if_neg hin, if_neg hin]
        rfl

/-- Without the steps begun, a report is the run. -/
theorem report_outcome (chain : Chain) (subject : Subject) (args : List String) (start : Nat) :
    Report.outcome <$> report (β := β) chain subject args start = chain.run subject args start := by
  rw [report, run, map_bind]
  exact congrArg _ (funext fun limit => reportFrom_outcome chain subject limit limit start args [])

end

/-! ## A run is blind -/

/-- Reports of the same steps, with equal traces or agreeing errors. -/
structure Report.Agrees (x y : Report) : Prop where
  started : x.started = y.started
  outcome : ChainError.Agree x.outcome y.outcome

section

variable [Conduct β] [Conduct.Blind β]

theorem respects_reportFrom (chain : Chain) (subject : Subject) (limit left index : Nat)
    (args : List String) (started : List Nat) :
    Routine.Respects (Bot.Alike (β := β)) Report.Agrees
      (reportFrom chain subject limit left index args started)
      (reportFrom chain subject limit left index args started) := by
  induction left generalizing index args started with
  | zero =>
      unfold reportFrom
      by_cases hin : index < chain.actions.length
      · rw [if_pos hin]
        exact .pure ⟨rfl, .refl _⟩
      · rw [if_neg hin]
        exact .pure ⟨rfl, .refl _⟩
  | succ left ih =>
      unfold reportFrom
      by_cases hin : index < chain.actions.length
      · rw [if_pos hin]
        refine (respects_advance chain subject index args).bind fun x y hxy => ?_
        rcases x with ⟨result, args⟩
        rcases y with ⟨result', args'⟩
        rcases hxy with ⟨hresult, hargs⟩
        simp only at hresult hargs
        subst hargs
        cases hresult with
        | error h => exact .pure ⟨rfl, .error h⟩
        | ok a =>
            cases a with
            | terminated => exact .pure ⟨rfl, .refl _⟩
            | next target => exact ih target args (index :: started)
      · rw [if_neg hin]
        exact .pure ⟨rfl, .refl _⟩

/-- A run is blind. -/
theorem respects_report (chain : Chain) (subject : Subject) (args : List String) (start : Nat) :
    Routine.Respects (Bot.Alike (β := β)) Report.Agrees (chain.report subject args start)
      (chain.report subject args start) := by
  have hlimit := Bot.Alike.respects_read
    (fun bot : Bot β => bot.settings.maxChainSteps) fun _ _ => rfl
  refine hlimit.bind fun limit limit' hsame => ?_
  subst hsame
  exact respects_reportFrom chain subject limit limit start args []

end

end Chain

/-! ## Compaction -/

theorem Variables.scope_compact (vars : Variables) (s : Scope) :
    vars.compact.1.scope s = (vars.scope s).compact.1 := by
  cases s <;> rfl

/-- The bot with its variables compacted. -/
def Bot.compacted (bot : Bot β) : Bot β := { bot with vars := bot.vars.compact.1 }

/-- Compacts before the cuts that a schedule names. -/
def Bot.compactWhen (schedule : Nat → Bool) (k : Nat) (bot : Bot β) : Bot β :=
  if schedule k then bot.compacted else bot

namespace Bot.Alike

variable {a b : Bot β}

theorem compacted_left (hab : a.Alike b) : a.compacted.Alike b := by
  rcases hab.elim with ⟨vars, rfl, hvars⟩
  refine ⟨rfl, fun s => ?_⟩
  rw [Bot.compacted, Variables.scope_compact]
  exact (hvars s).compact_left

theorem compacted_right (hab : a.Alike b) : a.Alike b.compacted := by
  rcases hab.elim with ⟨vars, rfl, hvars⟩
  refine ⟨rfl, fun s => ?_⟩
  simp only [Bot.compacted]
  rw [Variables.scope_compact]
  exact (hvars s).compact_right

/-- Schedules need not be the same on both sides. -/
theorem compactWhen (hab : a.Alike b) (schedule schedule' : Nat → Bool) (k : Nat) :
    (a.compactWhen schedule k).Alike (b.compactWhen schedule' k) := by
  -- One side after the other, as the schedules have nothing to do with each other.
  have hleft : (a.compactWhen schedule k).Alike b := by
    unfold Bot.compactWhen
    split
    · exact hab.compacted_left
    · exact hab
  rw [Bot.compactWhen.eq_def schedule' k b]
  split
  · exact hleft.compacted_right
  · exact hleft

theorem fileText_eq (hab : a.Alike b) (s : Scope) :
    (a.vars.scope s).fileText = (b.vars.scope s).fileText := by
  rw [Graph.fileText, Graph.fileText, (hab.vars s).encode]

/-- Writing the variables leaves the same files and fails alike. -/
theorem flushVariables_eq (hab : a.Alike b) :
    a.storage.flushVariables a.vars = b.storage.flushVariables b.vars := by
  have hserver := hab.fileText_eq .server
  have hglobal := hab.fileText_eq .global
  rcases hab.elim with ⟨vars, rfl, -⟩
  simp only [Variables.scope] at hserver hglobal
  rw [Storage.flushVariables, Storage.flushVariables, hserver, hglobal]

end Bot.Alike

/-! ## Runs that cannot be told apart -/

/-- Ends of two runs that differ in the positions of nodes only. -/
structure Chain.Indistinct (x y : Routine.Finished (Bot β) Chain.Report) : Prop where
  /-- The same steps were begun, so a failure happened at the same one. -/
  started : x.value.started = y.value.started
  /-- Equal traces, or agreeing errors. -/
  outcome : ChainError.Agree x.value.outcome y.value.outcome
  /-- The same messages in the same order. -/
  deliveries : x.state.deliveries = y.state.deliveries
  state : x.state.Alike y.state
  /-- The same files are written afterwards. -/
  files : x.state.storage.flushVariables x.state.vars = y.state.storage.flushVariables y.state.vars
  elapsed : x.elapsed = y.elapsed

/-- Runs of alike bots cannot be told apart, whenever the variables are
compacted during either. A report is the run and the steps it began, and on
the schedule that never compacts it is the report of a run alone. -/
theorem Chain.indistinct_of_alike {a b : Bot Shipped} (hab : a.Alike b) (chain : Chain)
    (subject : Subject) (args : List String) (start : Nat) :
    (∀ schedule schedule' : Nat → Bool,
      Indistinct ((chain.report subject args start).amid (Bot.compactWhen schedule) a)
        ((chain.report subject args start).amid (Bot.compactWhen schedule') b)) ∧
    (chain.report subject args start).amid (Bot.compactWhen fun _ => false) a
      = (chain.report subject args start).alone a ∧
    chain.run (β := Shipped) subject args start
      = Report.outcome <$> chain.report subject args start := by
  refine ⟨?_, Routine.amid_id _ a, (report_outcome chain subject args start).symm⟩
  intro schedule schedule'
  rcases (respects_report chain subject args start).amid
    (fun k s t hst => hst.compactWhen schedule schedule' k) hab with
    ⟨hvalue, hstate, helapsed⟩
  refine ⟨hvalue.started, hvalue.outcome, ?_, hstate, hstate.flushVariables_eq, helapsed⟩
  rw [← hstate.rest]

/-- A bot with the shipped mods and two nodes in a circle. -/
def Bot.ring : Bot Shipped :=
  (Bot.registerAll (Shipped.manifest id)
    { Bot.load ⟨.standard, .null, [], []⟩ .empty (fun _ _ _ => none) id with
      vars := ⟨Graph.ring, Graph.empty⟩ }).1

/-- Says a structured variable and then takes it for a number. -/
def Chain.stumble : Chain :=
  ⟨"stumble",
    [⟨none, [("message", .string "$server[a]"), ("channel", .number (.int 7 (by decide)))]⟩,
    ⟨some "increment-var", [("key", .string "b"), ("scope", .string "server")]⟩]⟩

theorem Chain.indistinct_of_alike_ring :
    Bot.ring.Alike Bot.ring.compacted ∧
    (∀ schedule schedule' : Nat → Bool,
      Indistinct
        ((stumble.report (.guild ⟨1, "home"⟩) [] 0).amid (Bot.compactWhen schedule) Bot.ring)
        ((stumble.report (.guild ⟨1, "home"⟩) [] 0).amid (Bot.compactWhen schedule')
          Bot.ring.compacted)) ∧
    (stumble.report (.guild ⟨1, "home"⟩) [] 0).amid (Bot.compactWhen fun _ => false) Bot.ring
      = (stumble.report (.guild ⟨1, "home"⟩) [] 0).alone Bot.ring ∧
    stumble.run (β := Shipped) (.guild ⟨1, "home"⟩) [] 0
      = Report.outcome <$> stumble.report (.guild ⟨1, "home"⟩) [] 0 := by
  have hvars : Bot.ring.vars.WellFormed := ⟨⟨by decide, by decide⟩, Graph.wellFormed_empty⟩
  have halike : Bot.ring.Alike Bot.ring.compacted := (Bot.Alike.refl_iff.2 hvars).compacted_right
  exact ⟨halike, indistinct_of_alike halike stumble (.guild ⟨1, "home"⟩) [] 0⟩

end ActionChain
