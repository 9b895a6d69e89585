import ActionChain.Proofs.Chain.Writes
import ActionChain.Proofs.Crowd
import ActionChain.Proofs.Numeric.Exact
import Mathlib.Data.List.Perm.Basic
import Mathlib.Data.Multiset.Bind

/-!
# Counters

No addition is lost, however many runs are under way.

An addition reads and stores in one act, so it always adds to what the last one
left. Additions therefore happen one after the other in some order, which the
schedule decides, and as long as they are integers and small together the order
makes no difference to their sum.

The order is kept track of by ghosts. Each run has the writes it has made, and
all of these together are, in the order in which they happened, what the
variable went through. When all runs have ended, theirs are the writes of the
steps they began, which can be told from the reports.

## Main definitions

* `Counts`: a variable that stands for an integer.
* `Write.Adds`: a write that adds an integer.
* `Errand`: a run that is asked for.

## Theorems

* `Stands.write`: a write to a counter, one after the others.
* `Errand.attended_play`: what a counter went through, at any time.
* `Chain.additions_add_up`: the runs of any schedule add up.
-/

namespace ActionChain

variable {β : Type}

/-- The value of a variable stands for an integer. A missing one and null stand
for zero. -/
def Counts : Option Value → Int → Prop
  | none, i => i = 0
  | some .null, i => i = 0
  | some (.number x), i => x.IsInt i
  | some _, _ => False

/-- A write that adds an integer. -/
inductive Write.Adds : Write → Int → Prop where
  | add {amount : Binary64} {i : Int} (h : amount.IsInt i) : Adds (.add amount) i

/-! ## One write after the other -/

theorem Counts.numberOf {v : Option Value} {i : Int} (h : Counts v i) (key : String) :
    ∃ x : Binary64, Shipped.numberOf key v = .ok x ∧ x.IsInt i := by
  cases v with
  | none =>
      obtain rfl : i = 0 := h
      exact ⟨_, rfl, Binary64.isInt_zero⟩
  | some v =>
      cases v with
      | null =>
          obtain rfl : i = 0 := h
          exact ⟨_, rfl, Binary64.isInt_zero⟩
      | number x => exact ⟨x, rfl, h⟩
      | bool b => exact h.elim
      | text s => exact h.elim
      | ref id => exact h.elim

theorem natAbs_sum_le (l : List Int) : l.sum.natAbs ≤ (l.map Int.natAbs).sum := by
  induction l with
  | nil => exact Nat.le_refl 0
  | cons a l ih =>
      rw [List.sum_cons, List.map_cons, List.sum_cons]
      exact (Int.natAbs_add_le a l.sum).trans (Nat.add_le_add_left ih _)

/-- What a variable comes to that stood for an integer, by writes of which the
latest is given first: if they add integers that are small together, their sum. -/
def Stands (i : Int) (timeline : List Write) (v : Option Value) : Prop :=
  ∀ amounts : List Int, List.Forall₂ Write.Adds timeline amounts →
    i.natAbs + (amounts.map Int.natAbs).sum ≤ 2 ^ 53 →
      Counts v (i + amounts.sum) ∧ (amounts ≠ [] → ∃ x, v = some (.number x))

namespace Stands

variable {i : Int} {timeline : List Write} {v v' : Option Value}

theorem start (h : Counts v i) : Stands i [] v := by
  intro amounts hadds _
  cases hadds
  exact ⟨by simpa using h, fun hne => absurd rfl hne⟩

theorem write {key : String} (h : Stands i timeline v) {w : Option Write}
    (heffect : Write.Effect key w v v') : Stands i (w.toList ++ timeline) v' := by
  cases w with
  | none =>
      obtain rfl : v' = v := heffect
      exact h
  | some w =>
      intro all hadds hsmall
      cases hadds with
      | @cons _ a _ amounts hadd hadds =>
        cases hadd with
        | @add amount _ hamount =>
          rw [List.map_cons, List.sum_cons] at hsmall
          rcases h amounts hadds (by omega) with ⟨hcounts, -⟩
          rcases hcounts.numberOf key with ⟨x, hnumber, hx⟩
          simp only [Write.Effect, hnumber] at heffect
          refine ⟨?_, fun _ => ⟨_, heffect⟩⟩
          -- The sum so far was small too, and so is the next one.
          have hsum : (i + amounts.sum + a).natAbs ≤ 2 ^ 53 := by
            have hrest := natAbs_sum_le amounts
            omega
          rw [heffect, List.sum_cons, Int.add_comm a, ← Int.add_assoc]
          exact hx.add hamount hsum

end Stands

/-! ## Runs under way -/

/-- A run that is asked for. -/
structure Errand where
  chain : Chain
  subject : Subject
  args : List String
  start : Nat

namespace Errand

variable [Conduct β]

/-- The run at its start. Its result is the report of the run. -/
def begun (e : Errand) : Routine (Bot β) Chain.Report := e.chain.report e.subject e.args e.start

/-- The next step of a run under way. -/
def step (run : Errand × Routine (Bot β) Chain.Report) (bot : Bot β) :
    Bot β × Errand × Routine (Bot β) Chain.Report :=
  let (bot, rest) := run.2.tick bot
  (bot, run.1, rest)

variable [Conduct.Accounts β] {bot : Bot β} {scope : Scope} {key : String} {i : Int}

/-- The ghost of a run is the writes it has made. -/
def Fits (bot : Bot β) (scope : Scope) (key : String)
    (run : Errand × Routine (Bot β) Chain.Report) (done : List Write) : Prop :=
  run.2.Tracked (fun s => s.registry = bot.registry) (Bot.Wrote scope key)
    (fun done report => done = run.1.chain.writes bot scope key report.started) done

/-- The writes of all runs are what the variable went through, in some order. -/
def Accounted (bot : Bot β) (scope : Scope) (key : String) (i : Int) (s : Bot β)
    (ghosts : Multiset (List Write)) : Prop :=
  s.registry = bot.registry ∧ ∃ timeline : List Write,
    (timeline : Multiset Write) = (ghosts.map Multiset.ofList).join ∧
      Stands i timeline (s.lookUp scope key)

theorem step_fits (run : Errand × Routine (Bot β) Chain.Report) (done : List Write) (s : Bot β)
    (others : Multiset (List Write)) (hrun : Fits bot scope key run done)
    (hs : Accounted bot scope key i s (done ::ₘ others)) :
    ∃ done', Fits bot scope key (step run s).2 done' ∧
      Accounted bot scope key i (step run s).1 (done' ::ₘ others) := by
  rcases hs with ⟨hregistry, timeline, htimeline, hstands⟩
  rcases Routine.Tracked.tick hrun hregistry with ⟨done', hact, hrest⟩
  refine ⟨done', hrest, ?_⟩
  show Accounted bot scope key i (run.2.tick s).1 (done' ::ₘ others)
  rcases hact with ⟨rfl, hsame⟩ | ⟨hhandled, w, rfl, heffect⟩
  · rw [hsame]
    exact ⟨hregistry, timeline, htimeline, hstands⟩
  · refine ⟨?_, w.toList ++ timeline, ?_, hstands.write heffect⟩
    · rw [hhandled]
      exact hregistry
    · -- The write is the last one of its run and of all runs.
      rw [Multiset.map_cons, Multiset.join_cons] at htimeline ⊢
      rw [← Multiset.coe_add, ← Multiset.coe_add, htimeline, add_left_comm,
        add_assoc]

/-- Whatever the schedule and however far it has got, the runs account for what
the variable went through. -/
theorem attended_play (errands : List Errand) (schedule : List Nat)
    (hbefore : Counts (bot.lookUp scope key) i) :
    ((⟨bot, errands.map fun e => (e, e.begun)⟩ : Crowd (Bot β) _).play step schedule).Attended
      (Fits bot scope key) (Accounted bot scope key i) := by
  refine Crowd.Attended.play step_fits schedule ⟨errands.map fun _ => [], ?_, rfl, [], ?_, ?_⟩
  · rw [List.forall₂_map_left_iff, List.forall₂_map_right_iff, List.forall₂_same]
    exact fun e _ => e.chain.tracked_report e.subject e.args e.start
  · rw [Multiset.map_coe, Multiset.coe_join]
    simp
  · exact .start hbefore

end Errand

/-- No addition is lost. Any number of runs, on any schedule that they have ended
by, and whatever else they do: if the writes to a variable are additions of
integers that are small together with the integer the variable stood for at
first, it stands for their sum in the end. -/
theorem Chain.additions_add_up [Conduct β] [Conduct.Accounts β] (bot final : Bot β)
    (runs : List (Errand × Chain.Report)) (schedule : List Nat)
    (hplayed : (⟨bot, runs.map fun r => (r.1, r.1.begun)⟩ : Crowd (Bot β) _).play Errand.step
      schedule = ⟨final, runs.map fun r => (r.1, .done r.2)⟩)
    (scope : Scope) (key : String) (i : Int) (amounts : List Int)
    (hbefore : Counts (bot.lookUp scope key) i)
    (hwrites : List.Forall₂ Write.Adds
      (runs.flatMap fun r => r.1.chain.writes bot scope key r.2.started) amounts)
    (hsmall : i.natAbs + (amounts.map Int.natAbs).sum ≤ 2 ^ 53) :
    Counts (final.lookUp scope key) (i + amounts.sum) ∧
      (amounts ≠ [] → ∃ x, final.lookUp scope key = some (.number x)) := by
  have hattended := Errand.attended_play (runs.map Prod.fst) schedule hbefore
  rw [List.map_map, Function.comp_def, hplayed] at hattended
  rcases hattended with ⟨ghosts, hfit, -, timeline, htimeline, hstands⟩
  -- A run that has ended has made the writes of the steps it began.
  have hghosts : ghosts = runs.map fun r => r.1.chain.writes bot scope key r.2.started := by
    rw [List.forall₂_map_left_iff] at hfit
    have hsame : List.Forall₂ Eq ghosts
        (runs.map fun r => r.1.chain.writes bot scope key r.2.started) := by
      rw [List.forall₂_map_right_iff]
      exact hfit.flip
    rwa [List.forall₂_eq_eq_eq] at hsame
  have hperm : timeline.Perm
      (runs.flatMap fun r => r.1.chain.writes bot scope key r.2.started) := by
    rw [hghosts, Multiset.map_coe, Multiset.coe_join, Multiset.coe_eq_coe] at htimeline
    exact htimeline
  rcases List.perm_comp_forall₂ hperm hwrites with ⟨amounts', hadds, hamounts⟩
  have hsmall' : i.natAbs + (amounts'.map Int.natAbs).sum ≤ 2 ^ 53 := by
    rwa [(hamounts.map Int.natAbs).sum_eq]
  rcases hstands amounts' hadds hsmall' with ⟨hcounts, hstored⟩
  rw [hamounts.sum_eq] at hcounts
  refine ⟨hcounts, fun hne => hstored ?_⟩
  rintro rfl
  exact hne hamounts.nil_eq.symm

/-- Counts twice and waits in between. -/
def Chain.tally : Chain :=
  ⟨"count",
    [⟨some "increment-var", [("key", .string "n"), ("scope", .string "server")]⟩,
    ⟨some "wait", [("ms", .number (.int 1 Number.inRange_one))]⟩,
    ⟨some "increment-var", [("key", .string "n"), ("scope", .string "server")]⟩]⟩

/-- Two runs of it, both of which begin all three steps. -/
def Chain.rivals : List (Errand × Chain.Report) :=
  [(⟨tally, .guild ⟨1, "home"⟩, [], 0⟩, ⟨[0, 1, 2], .ok ⟨[0, 1, 2], []⟩⟩),
    (⟨tally, .guild ⟨1, "home"⟩, [], 0⟩, ⟨[0, 1, 2], .ok ⟨[0, 1, 2], []⟩⟩)]

/-- A bot with the shipped mods and no variables. -/
def Bot.blank : Bot Shipped :=
  (Bot.registerAll (Shipped.manifest id)
    (Bot.load ⟨.standard, .null, [], []⟩ .empty (fun _ _ _ => none) id)).1

/-- The runs take turns. -/
def Chain.turns : List Nat := [0, 1, 0, 1, 0, 1, 0, 1, 0, 1, 0, 1, 0, 1]

theorem Chain.additions_add_up_rivals :
    let final := (⟨Bot.blank, rivals.map fun r => (r.1, r.1.begun)⟩ : Crowd (Bot Shipped) _).play
      Errand.step turns
    final.members = rivals.map (fun r => (r.1, .done r.2)) ∧
    Counts (final.state.lookUp .server "n") 4 ∧
      ∃ x, final.state.lookUp .server "n" = some (.number x) := by
  intro final
  have hmembers : final.members = rivals.map (fun r => (r.1, .done r.2)) := rfl
  have hone : Binary64.one.IsInt 1 := Binary64.isInt_ofInt (by decide)
  have hwrites : (rivals.flatMap fun r => r.1.chain.writes Bot.blank .server "n" r.2.started) =
      [.add .one, .add .one, .add .one, .add .one] := by decide +kernel
  have hfinal := additions_add_up Bot.blank final.state rivals turns
    (by rw [← hmembers]) .server "n" 0 [1, 1, 1, 1] rfl
    (by rw [hwrites]; exact .cons ⟨hone⟩ (.cons ⟨hone⟩ (.cons ⟨hone⟩ (.cons ⟨hone⟩ .nil))))
    (by decide)
  exact ⟨hmembers, hfinal.1, hfinal.2 (by decide)⟩

end ActionChain
