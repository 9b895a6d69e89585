import ActionChain.Chain.Run
import Mathlib.Logic.Function.Iterate

/-!
# The Course of a Run

A run, as steps taken one after the other.

Taken by themselves, steps know no limit and no end: each one starts from the
bot and the arguments the last one left, at the index it named, for as long as
it named one. That is a course. A run follows the course of its chain until it
is inside the chain no more, or until the limit is used up, and all there is to
say of the run — its trace or its error, the bot it leaves, the time it takes —
is read off the point of the course where it stops (`Chain.exists_stop`). The
limit decides nothing else, so two limits differ only for a course that reaches
the lower one.

## Main definitions

* `Course`: what steps have come to.
* `Course.Inside`, `Course.Complete`: there is a next action, or none is left.
* `Chain.courseStep`, `Chain.course`: a step, and the course of a chain.
* `Chain.Stops`: where a run under a limit stops.

## Theorems

* `Chain.runFrom_alone`: a run follows the course.
* `Chain.exists_stop`: and so does one under the limit of the settings.
* `Chain.Stops.unique`: there is one place to stop.
* `Chain.executed_course`: the indices along a course.
-/

namespace ActionChain

variable {β : Type}

/-- What steps of a chain have come to. -/
structure Course (β : Type) where
  /-- The indices of the steps, in order. -/
  executed : List Nat
  args : List String
  bot : Bot β
  /-- The milliseconds the steps took. -/
  elapsed : Nat
  /-- Where the last step leads. -/
  next : Except ChainError Advance

namespace Course

/-- A chain with some number of actions has one at the next index. -/
def Inside (length : Nat) (c : Course β) : Prop :=
  ∃ index < length, c.next = .ok (.next index)

/-- The last step ended the chain or leads outside. -/
def Complete (length : Nat) (c : Course β) : Prop :=
  c.next = .ok .terminated ∨ ∃ index ≥ length, c.next = .ok (.next index)

theorem Complete.not_inside {length : Nat} {c : Course β} (h : c.Complete length) :
    ¬ c.Inside length := by
  rintro ⟨index, hin, hnext⟩
  rcases h with hterminated | ⟨outside, hout, hnext'⟩
  · simp [hnext] at hterminated
  · simp only [hnext, Except.ok.injEq, Advance.next.injEq] at hnext'
    omega

end Course

namespace Chain

/-! ## Where a run stops -/

section Stops

variable {chain : Chain} {c : Nat → Course β} {limit limit' n n' : Nat}

/-- A run under a limit stops after a number of steps: all of them were inside,
and the limit is used up or there is no next one. -/
structure Stops (chain : Chain) (limit : Nat) (c : Nat → Course β) (n : Nat) : Prop where
  le : n ≤ limit
  inside : ∀ k < n, (c k).Inside chain.actions.length
  last : n = limit ∨ ¬ (c n).Inside chain.actions.length

/-- What a run reports that stops at a point of its course. -/
def outcome (chain : Chain) (limit : Nat) (c : Course β) : Except ChainError Trace :=
  match c.next with
  | .error e => .error e
  | .ok .terminated => .ok ⟨c.executed, c.args⟩
  | .ok (.next index) =>
    if index < chain.actions.length then .error (.stepLimit chain.name limit)
    else .ok ⟨c.executed, c.args⟩

/-- A step inside the chain moves the place to stop on by one. -/
theorem Stops.succ {left : Nat} (h0 : (c 0).Inside chain.actions.length)
    (h : chain.Stops left (fun k => c (k + 1)) n) : chain.Stops (left + 1) c (n + 1) where
  le := Nat.succ_le_succ h.le
  inside k hk := by
    cases k with
    | zero => exact h0
    | succ k => exact h.inside k (Nat.lt_of_succ_lt_succ hk)
  last := h.last.imp_left (congrArg (· + 1))

/-- There is one place to stop. -/
theorem Stops.unique (h : chain.Stops limit c n) (h' : chain.Stops limit c n') : n = n' := by
  have notLess {n n' : Nat} (h : chain.Stops limit c n) (h' : chain.Stops limit c n') :
      ¬ n < n' := by
    intro hlt
    have hn := h'.le
    rcases h.last with heq | hlast
    · omega
    · exact hlast (h'.inside n hlt)
  exact Nat.le_antisymm (Nat.le_of_not_lt (notLess h' h)) (Nat.le_of_not_lt (notLess h h'))

/-- Where a run stops because there is no next step, it stops under any larger
limit. -/
theorem Stops.mono (h : chain.Stops limit c n) (hlast : ¬ (c n).Inside chain.actions.length)
    (hlimit : limit ≤ limit') : chain.Stops limit' c n :=
  ⟨Nat.le_trans h.le hlimit, h.inside, .inr hlast⟩

/-- A point of a course where a run completes is where it stops, and no other is. -/
theorem Stops.outcome_eq_ok (hstops : chain.Stops limit c n) {trace : Trace} :
    chain.outcome limit (c n) = .ok trace ↔ ∃ m ≤ limit,
      (∀ k < m, (c k).Inside chain.actions.length) ∧ (c m).Complete chain.actions.length ∧
        trace = ⟨(c m).executed, (c m).args⟩ := by
  constructor
  · intro h
    refine ⟨n, hstops.le, hstops.inside, ?_⟩
    unfold outcome at h
    rcases hnext : (c n).next with e | (index | _) <;> simp only [hnext] at h
    · cases h
    · split at h
      · cases h
      · cases h
        exact ⟨.inr ⟨index, by omega, hnext⟩, rfl⟩
    · cases h
      exact ⟨.inl hnext, rfl⟩
  · rintro ⟨m, hm, hinside, hcomplete, rfl⟩
    obtain rfl : n = m := hstops.unique ⟨hm, hinside, .inr hcomplete.not_inside⟩
    unfold outcome
    rcases hcomplete with hnext | ⟨index, hout, hnext⟩ <;> simp only [hnext]
    rw [if_neg (by omega)]

/-- It fails with the error of a step, or because the limit is used up. -/
theorem Stops.outcome_eq_error (hstops : chain.Stops limit c n) {e : ChainError} :
    chain.outcome limit (c n) = .error e ↔
      ((∀ k ≤ limit, (c k).Inside chain.actions.length) ∧ e = .stepLimit chain.name limit) ∨
        ∃ m ≤ limit, (∀ k < m, (c k).Inside chain.actions.length) ∧ (c m).next = .error e := by
  constructor
  · intro h
    unfold outcome at h
    rcases hnext : (c n).next with e' | (index | _) <;> simp only [hnext] at h
    · cases h
      exact .inr ⟨n, hstops.le, hstops.inside, hnext⟩
    · split at h
      · rename_i hin
        cases h
        have hlast : (c n).Inside chain.actions.length := ⟨index, hin, hnext⟩
        obtain rfl : n = limit := hstops.last.resolve_right fun hout => hout hlast
        refine .inl ⟨fun k hk => ?_, rfl⟩
        rcases Nat.lt_or_eq_of_le hk with hlt | rfl
        · exact hstops.inside k hlt
        · exact hlast
      · cases h
    · cases h
  · rintro (⟨hinside, rfl⟩ | ⟨m, hm, hinside, hnext⟩)
    · obtain rfl : n = limit :=
        hstops.unique ⟨Nat.le_refl _, fun k hk => hinside k (Nat.le_of_lt hk), .inl rfl⟩
      rcases hinside n (Nat.le_refl n) with ⟨index, hin, hnext⟩
      simp [outcome, hnext, hin]
    · have hlast : ¬ (c m).Inside chain.actions.length := by
        rintro ⟨index, -, hnext'⟩
        simp [hnext] at hnext'
      obtain rfl : n = m := hstops.unique ⟨hm, hinside, .inr hlast⟩
      simp [outcome, hnext]

/-- Where a run completes, a larger limit makes no difference. -/
theorem Stops.outcome_of_le (hstops : chain.Stops limit c n) {trace : Trace}
    (h : chain.outcome limit (c n) = .ok trace) (hle : limit ≤ limit') :
    chain.Stops limit' c n ∧ chain.outcome limit' (c n) = .ok trace := by
  rcases hstops.outcome_eq_ok.1 h with ⟨m, hm, hinside, hcomplete, htrace⟩
  obtain rfl : n = m := hstops.unique ⟨hm, hinside, .inr hcomplete.not_inside⟩
  have hstops' := hstops.mono hcomplete.not_inside hle
  exact ⟨hstops', hstops'.outcome_eq_ok.2 ⟨n, hstops'.le, hinside, hcomplete, htrace⟩⟩

end Stops

/-! ## Steps and runs -/

variable [Conduct β] (chain : Chain) (subject : Subject)

/-- A step from where the last one led. -/
def courseStep (c : Course β) : Course β :=
  match c.next with
  | .ok (.next index) =>
    let f := (advance chain subject index c.args).alone c.bot
    ⟨c.executed ++ [index], f.value.2, f.state, c.elapsed + f.elapsed, f.value.1⟩
  | _ => c

/-- What a number of steps come to, from an index on. -/
def course (args : List String) (start : Nat) (bot : Bot β) (n : Nat) : Course β :=
  (courseStep chain subject)^[n] ⟨[], args, bot, 0, .ok (.next start)⟩

theorem courseStep_of_next {c : Course β} {index : Nat} (h : c.next = .ok (.next index)) :
    courseStep chain subject c =
      let f := (advance chain subject index c.args).alone c.bot
      ⟨c.executed ++ [index], f.value.2, f.state, c.elapsed + f.elapsed, f.value.1⟩ := by
  simp only [courseStep, h]

/-- A run with some steps left follows the course from where it stands. -/
theorem runFrom_alone (limit : Nat) : ∀ (left : Nat) (c : Course β) (index : Nat),
    c.next = .ok (.next index) → ∃ n,
      chain.Stops left (fun k => (courseStep chain subject)^[k] c) n ∧
      let run := (runFrom chain subject limit left index c.args c.executed.reverse).alone c.bot
      let last := (courseStep chain subject)^[n] c
      run.value = chain.outcome limit last ∧ run.state = last.bot ∧
        c.elapsed + run.elapsed = last.elapsed := by
  intro left
  induction left with
  | zero =>
      intro c index hnext
      refine ⟨0, ⟨Nat.le_refl 0, nofun, .inl rfl⟩, ?_⟩
      unfold runFrom
      by_cases hin : index < chain.actions.length <;> simp [hin, outcome, hnext]
  | succ left ih =>
      intro c index hnext
      unfold runFrom
      by_cases hin : index < chain.actions.length
      · have hinside : c.Inside chain.actions.length := ⟨index, hin, hnext⟩
        have hstep := courseStep_of_next chain subject hnext
        have hreverse : index :: c.executed.reverse = (c.executed ++ [index]).reverse := by simp
        simp only [if_pos hin, Routine.alone_bind]
        -- The step is taken; what is left depends on where it leads.
        generalize hf : (advance chain subject index c.args).alone c.bot = f at hstep
        rcases f with ⟨⟨result, args⟩, bot, elapsed⟩
        have stops (hlast : ¬ (courseStep chain subject c).Inside chain.actions.length) :
            chain.Stops (left + 1) (fun k => (courseStep chain subject)^[k] c) 1 :=
          .succ hinside ⟨Nat.zero_le left, nofun, .inr hlast⟩
        rcases result with e | (target | _)
        · refine ⟨1, stops ?_, ?_⟩
          · simp [hstep, Course.Inside]
          · simp [hstep, outcome]
        · have hnext' : (courseStep chain subject c).next = .ok (.next target) := by rw [hstep]
          rcases ih (courseStep chain subject c) target hnext' with ⟨n, hstops, hrun⟩
          refine ⟨n + 1, hstops.succ hinside, ?_⟩
          simp only [hstep, hreverse, Function.iterate_succ_apply] at hrun ⊢
          refine ⟨hrun.1, hrun.2.1, ?_⟩
          rw [← hrun.2.2, Nat.add_assoc]
        · refine ⟨1, stops ?_, ?_⟩
          · simp [hstep, Course.Inside]
          · simp [hstep, outcome]
      · refine ⟨0, ⟨Nat.zero_le _, nofun, .inr ?_⟩, ?_⟩
        · rintro ⟨index', hin', hnext'⟩
          simp only [Function.iterate_zero, id, hnext, Except.ok.injEq,
            Advance.next.injEq] at hnext'
          omega
        · simp [hin, outcome, hnext]

theorem course_succ (args : List String) (start : Nat) (bot : Bot β) (n : Nat) :
    course chain subject args start bot (n + 1) =
      courseStep chain subject (course chain subject args start bot n) :=
  Function.iterate_succ_apply' ..

/-- A run under any limit follows the course of its chain to the place where it
stops. -/
theorem exists_stop_of_limit (limit : Nat) (args : List String) (start : Nat) (bot : Bot β) :
    ∃ n, chain.Stops limit (course chain subject args start bot) n ∧
      (runFrom chain subject limit limit start args []).alone bot =
        ⟨chain.outcome limit (course chain subject args start bot n),
          (course chain subject args start bot n).bot,
          (course chain subject args start bot n).elapsed⟩ := by
  rcases runFrom_alone chain subject limit limit
    ⟨[], args, bot, 0, .ok (.next start)⟩ start rfl with ⟨n, hstops, hvalue, hstate, helapsed⟩
  refine ⟨n, hstops, ?_⟩
  rw [Nat.zero_add] at helapsed
  simp only [course, ← hvalue, ← hstate, ← helapsed, List.reverse_nil]

/-- A run follows the course of its chain to the place where it stops. -/
theorem exists_stop (args : List String) (start : Nat) (bot : Bot β) : ∃ n,
    chain.Stops bot.settings.maxChainSteps (course chain subject args start bot) n ∧
    (chain.run subject args start).alone bot =
      ⟨chain.outcome bot.settings.maxChainSteps (course chain subject args start bot n),
        (course chain subject args start bot n).bot,
        (course chain subject args start bot n).elapsed⟩ := by
  rcases exists_stop_of_limit chain subject bot.settings.maxChainSteps args start bot with
    ⟨n, hstops, hrun⟩
  refine ⟨n, hstops, ?_⟩
  simp [run, Routine.alone_bind, hrun]

/-- The indices executed are those that the course led to. -/
theorem executed_course (args : List String) (start : Nat) (bot : Bot β) {n : Nat}
    (hinside : ∀ k < n, (course chain subject args start bot k).Inside chain.actions.length) :
    (course chain subject args start bot n).executed.map (fun index => .ok (.next index)) =
        (List.range n).map (fun k => (course chain subject args start bot k).next) ∧
      ∀ index ∈ (course chain subject args start bot n).executed,
        index < chain.actions.length := by
  induction n with
  | zero => simp [course]
  | succ n ih =>
      rcases ih (fun k hk => hinside k (Nat.lt_succ_of_lt hk)) with ⟨hexecuted, hbound⟩
      rcases hinside n (Nat.lt_succ_self n) with ⟨index, hin, hnext⟩
      have hstep : (course chain subject args start bot (n + 1)).executed =
          (course chain subject args start bot n).executed ++ [index] := by
        rw [course_succ, courseStep_of_next chain subject hnext]
      rw [hstep, List.map_append, hexecuted, List.range_succ, List.map_append]
      refine ⟨by simp [hnext], fun other hmem => ?_⟩
      rcases List.mem_append.1 hmem with hold | hnew
      · exact hbound other hold
      · rw [List.mem_singleton.1 hnew]
        exact hin

end Chain

end ActionChain
